import SchemaSynth.Schema.Table

/-! Statements of a script, each guarded so that it does nothing where its effect is already there.
-/
namespace SchemaSynth

/-- A statement or a comment. The key of a table is replaced by a key over more columns. -/
inductive Statement
  | comment (text : String)
  | createTable (table : Table)
  | addColumn (table : String) (column : Column)
  | addForeignKey (key : ForeignKey)
  | replacePrimaryKey (table : String) (columns : List String)
  | createIndex (index : Index)
deriving DecidableEq

namespace Statement

/-- Splits at every line feed and carriage return, each of which ends a comment. -/
def lines : List Char → List (List Char)
  | [] => [[]]
  | c :: cs =>
    if c = '\n' ∨ c = '\r' then [] :: lines cs
    else match lines cs with
      | [] => [[c]]
      | l :: ls => (c :: l) :: ls

def commentLine (l : List Char) : String :=
  "-- " ++ String.ofList l ++ "\n"

/-- A comment line for every line that is not empty. -/
def renderComment (text : String) : String :=
  String.join (((lines text.toList).filter (· ≠ [])).map commentLine)

def primaryKeyName (table : String) : String :=
  table ++ "_pkey"

def commas (names : List String) : String :=
  ", ".intercalate names

def foreignKeyClause (k : ForeignKey) : String :=
  "FOREIGN KEY (" ++ k.column ++ ") REFERENCES " ++ k.referencedTable ++ "(id) ON DELETE "
    ++ k.onDelete.sql

/-- The entries of a table: columns, composite key, unique groups, foreign keys, checks. -/
def tableEntries (t : Table) : List String :=
  t.columns.map Column.definition
    ++ t.compositeKey.toList.map (fun key => "PRIMARY KEY (" ++ commas key ++ ")")
    ++ t.uniqueKeys.map (fun key => "UNIQUE (" ++ commas key ++ ")")
    ++ t.foreignKeys.map (fun k => "CONSTRAINT " ++ k.name ++ " " ++ foreignKeyClause k)
    ++ t.checks.map (fun c => "CONSTRAINT " ++ c.name ++ " CHECK (" ++ c.expression ++ ")")

def renderTable (t : Table) : String :=
  "CREATE TABLE IF NOT EXISTS " ++ t.name ++ " (\n"
    ++ ",\n".intercalate ((tableEntries t).map ("  " ++ ·)) ++ "\n);\n"

def renderForeignKey (k : ForeignKey) : String :=
  "DO $$\nBEGIN\n  IF NOT EXISTS (\n"
    ++ "    SELECT 1 FROM information_schema.table_constraints\n"
    ++ "    WHERE constraint_name = '" ++ k.name ++ "' AND table_name = '" ++ k.table ++ "'\n"
    ++ "  ) THEN\n"
    ++ "    ALTER TABLE " ++ k.table ++ " ADD CONSTRAINT " ++ k.name ++ " " ++ foreignKeyClause k
    ++ ";\n  END IF;\nEND $$;\n"

def renderPrimaryKey (table : String) (columns : List String) : String :=
  let key := primaryKeyName table
  "DO $$\nBEGIN\n  IF (\n"
    ++ "    SELECT count(*) FROM information_schema.key_column_usage\n"
    ++ "    WHERE constraint_name = '" ++ key ++ "' AND table_name = '" ++ table ++ "'\n"
    ++ "      AND column_name IN (" ++ commas (columns.map fun c => "'" ++ c ++ "'") ++ ")\n"
    ++ "  ) < " ++ toString columns.length ++ " THEN\n"
    ++ "    ALTER TABLE " ++ table ++ " DROP CONSTRAINT IF EXISTS " ++ key ++ ";\n"
    ++ "    ALTER TABLE " ++ table ++ " ADD CONSTRAINT " ++ key ++ " PRIMARY KEY ("
    ++ commas columns ++ ");\n  END IF;\nEND $$;\n"

/-- The text of a statement. It ends with a line feed, unless it is empty. -/
def render : Statement → String
  | .comment text => renderComment text
  | .createTable t => renderTable t
  | .addColumn table c =>
    "ALTER TABLE " ++ table ++ " ADD COLUMN IF NOT EXISTS " ++ c.definition ++ ";\n"
  | .addForeignKey k => renderForeignKey k
  | .replacePrimaryKey table columns => renderPrimaryKey table columns
  | .createIndex i =>
    "CREATE INDEX IF NOT EXISTS " ++ i.name ++ " ON " ++ i.table ++ "(" ++ i.column ++ ");\n"

def renderBlock (statements : List Statement) : String :=
  String.join (statements.map render) ++ "\n"

end Statement
end SchemaSynth
