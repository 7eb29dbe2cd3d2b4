import SchemaSynth.Schema.Statement

/-! A database as far as the guards of statements look at it, and what statements do to it. -/
namespace SchemaSynth

/-- The columns of the key: those declared together, or else the column that is the key alone. -/
def Table.keyColumns (t : Table) : List String :=
  t.compositeKey.getD ((t.columns.filter (·.primaryKey)).map (·.name))

structure StoredTable where
  columns : List Column
  key : List String
  uniqueKeys : List (List String)
  foreignKeys : List ForeignKey
  checks : List Check
deriving DecidableEq

namespace StoredTable

def ofTable (t : Table) : StoredTable :=
  ⟨t.columns, t.keyColumns, t.uniqueKeys, t.foreignKeys, t.checks⟩

def columnNames (t : StoredTable) : List String :=
  t.columns.map (·.name)

/-- The names of the constraints of a table. The key has its name from the table. -/
def constraintNames (table : String) (t : StoredTable) : List String :=
  Statement.primaryKeyName table :: (t.foreignKeys.map (·.name) ++ t.checks.map (·.name))

def addColumn (c : Column) (t : StoredTable) : StoredTable :=
  if c.name ∈ t.columnNames then t else { t with columns := t.columns ++ [c] }

def addForeignKey (k : ForeignKey) (t : StoredTable) : StoredTable :=
  if k.name ∈ t.constraintNames k.table then t else { t with foreignKeys := t.foreignKeys ++ [k] }

def covered (columns : List String) (t : StoredTable) : Nat :=
  t.key.countP (columns.contains ·)

/-- Replaces the key, if it has fewer of the columns than there are. -/
def replaceKey (columns : List String) (t : StoredTable) : StoredTable :=
  if t.covered columns < columns.length then { t with key := columns } else t

end StoredTable

structure Database where
  tables : String → Option StoredTable
  indexes : String → Option Index

namespace Database

def empty : Database :=
  ⟨fun _ => none, fun _ => none⟩

def put (db : Database) (name : String) (t : StoredTable) : Database :=
  { db with tables := fun n => if n = name then some t else db.tables n }

/-- Changes a table. There is no result without the table. -/
def alter (db : Database) (name : String) (change : StoredTable → StoredTable) : Option Database :=
  (db.tables name).map fun t => db.put name (change t)

def createTable (db : Database) (t : Table) : Database :=
  if (db.tables t.name).isSome then db else db.put t.name (.ofTable t)

def createIndex (db : Database) (i : Index) : Database :=
  if (db.indexes i.name).isSome then db
  else { db with indexes := fun n => if n = i.name then some i else db.indexes n }

/-- What a statement does, as its guard says. A statement about a table that is not there fails;
what a foreign key refers to is not looked at. -/
def exec (db : Database) : Statement → Option Database
  | .comment _ => some db
  | .createTable t => some (db.createTable t)
  | .addColumn table c => db.alter table (·.addColumn c)
  | .addForeignKey k => db.alter k.table (·.addForeignKey k)
  | .replacePrimaryKey table columns => db.alter table (·.replaceKey columns)
  | .createIndex i => (db.tables i.table).map fun _ => db.createIndex i

/-- The database after all of the statements. It stops at one that fails. -/
def run (db : Database) (statements : List Statement) : Option Database :=
  statements.foldlM exec db

end Database
end SchemaSynth
