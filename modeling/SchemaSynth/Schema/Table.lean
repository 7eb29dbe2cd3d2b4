import SchemaSynth.Schema.Column
import SchemaSynth.Schema.Identifier

/-! Tables with their keys, constraints and indexes. -/
namespace SchemaSynth

inductive OnDelete
  | cascade
  | setNull
deriving DecidableEq

def OnDelete.sql : OnDelete → String
  | .cascade => "CASCADE"
  | .setNull => "SET NULL"

/-- A foreign key from a column to the key `id` of a table. -/
structure ForeignKey where
  name : String
  table : String
  column : String
  referencedTable : String
  onDelete : OnDelete
deriving DecidableEq

namespace ForeignKey

def between (table column referencedTable : String) (onDelete : OnDelete) : ForeignKey :=
  ⟨Identifier.joined ["fk", table, referencedTable], table, column, referencedTable, onDelete⟩

def named (k : ForeignKey) (name : String) : ForeignKey :=
  { k with name := Identifier.truncate name }

end ForeignKey

structure Check where
  name : String
  expression : String
deriving DecidableEq

structure Index where
  name : String
  table : String
  column : String
deriving DecidableEq

def Index.named (name table column : String) : Index :=
  ⟨Identifier.truncate name, table, column⟩

/-- A table: the columns, a key over several of them if no column alone is the key, groups of
columns unique together, and the constraints declared with the table. -/
structure Table where
  name : String
  columns : List Column
  compositeKey : Option (List String)
  uniqueKeys : List (List String)
  foreignKeys : List ForeignKey
  checks : List Check
deriving DecidableEq

namespace Table

def plain (name : String) (columns : List Column) : Table :=
  ⟨name, columns, none, [], [], []⟩

def column? (t : Table) (name : String) : Option Column :=
  t.columns.find? (·.name == name)

end Table
end SchemaSynth
