/-! Columns of a table. -/
namespace SchemaSynth

/-- The types a column can have. Attributes have one of the first five; the others serve keys, and
columns the program adds. -/
inductive ColumnType
  | integer
  | numeric
  | boolean
  | timestamp
  | text
  | bigInt
  | bigSerial
  | jsonb
  | varchar (length : UInt16)
deriving DecidableEq

def ColumnType.sql : ColumnType → String
  | .integer => "integer"
  | .numeric => "numeric"
  | .boolean => "boolean"
  | .timestamp => "timestamp"
  | .text => "text"
  | .bigInt => "BIGINT"
  | .bigSerial => "BIGSERIAL"
  | .jsonb => "jsonb"
  | .varchar length => "VARCHAR(" ++ toString length.toNat ++ ")"

/-- A column. The default, if there is one, is a literal of the statement language. -/
structure Column where
  name : String
  type : ColumnType
  nullable : Bool
  primaryKey : Bool
  default? : Option String
deriving DecidableEq

namespace Column

def plain (name : String) (type : ColumnType) : Column :=
  ⟨name, type, true, false, none⟩

def surrogateKey : Column :=
  ⟨"id", .bigSerial, false, true, none⟩

def reference (name : String) (nullable : Bool) : Column :=
  ⟨name, .bigInt, nullable, false, none⟩

def withDefault (c : Column) (literal : String) : Column :=
  { c with default? := some literal }

def definition (c : Column) : String :=
  c.name ++ " " ++ c.type.sql
    ++ (if c.primaryKey then " PRIMARY KEY" else if c.nullable then "" else " NOT NULL")
    ++ (match c.default? with
      | some literal => " DEFAULT " ++ literal
      | none => "")

end Column
end SchemaSynth
