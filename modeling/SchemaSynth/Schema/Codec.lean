import SchemaSynth.Json.Decode
import SchemaSynth.Number.Binary64
import SchemaSynth.Schema.Statement

/-! JSON forms of columns, tables and statements. -/
namespace SchemaSynth
open Json

namespace ColumnType

def known : List (String × ColumnType) :=
  [("integer", .integer), ("numeric", .numeric), ("boolean", .boolean), ("timestamp", .timestamp),
    ("text", .text), ("bigint", .bigInt), ("bigserial", .bigSerial), ("jsonb", .jsonb)]

def encode : ColumnType → Value
  | .integer => .text "integer"
  | .numeric => .text "numeric"
  | .boolean => .text "boolean"
  | .timestamp => .text "timestamp"
  | .text => .text "text"
  | .bigInt => .text "bigint"
  | .bigSerial => .text "bigserial"
  | .jsonb => .text "jsonb"
  | .varchar length => .object [("varchar", .ofNat length.toNat)]

/-- Lengths have 16 bits. -/
def decode : Decoder ColumnType :=
  .variant ((known.map fun (name, t) => (name, .bare t)) ++ [("varchar", .holding fun o v =>
    (Decoder.integerIn 0 (Word.limit 16) "u16" o v).map fun n => .varchar n.toNat.toUInt16)])

end ColumnType

namespace OnDelete

def encode : OnDelete → Value
  | .cascade => .text "CASCADE"
  | .setNull => .text "SET_NULL"

def decode : Decoder OnDelete := .choice [("CASCADE", .cascade), ("SET_NULL", .setNull)]

end OnDelete

namespace Column

def fields : List Field :=
  [.required "name" .text, .required "column_type" ColumnType.decode,
    .defaulted "nullable" [] .boolean, .defaulted "primary_key" [] .boolean,
    .nullable "default_value" .text]

def encode (c : Column) : Value :=
  .object ([("column_type", c.type.encode)]
    ++ c.default?.toList.map (fun d => ("default_value", .text d))
    ++ [("name", .text c.name), ("nullable", .boolean c.nullable),
      ("primary_key", .boolean c.primaryKey)])

def decode : Decoder Column := fun o v => do
  let slots ← Slots.ofValue "struct Column" fields o v
  return {
    name := ← slots.required "name" o .text
    type := ← slots.required "column_type" o ColumnType.decode
    nullable := ← slots.defaulted "nullable" o .boolean true
    primaryKey := ← slots.defaulted "primary_key" o .boolean false
    default? := ← slots.nullable "default_value" o .text }

end Column

namespace ForeignKey

def fields : List Field :=
  [.required "name" .text, .required "table" .text, .required "column" .text,
    .required "referenced_table" .text, .required "on_delete" OnDelete.decode]

def encode (k : ForeignKey) : Value :=
  .object [("column", .text k.column), ("name", .text k.name), ("on_delete", k.onDelete.encode),
    ("referenced_table", .text k.referencedTable), ("table", .text k.table)]

def decode : Decoder ForeignKey := fun o v => do
  let slots ← Slots.ofValue "struct ForeignKey" fields o v
  return {
    name := ← slots.required "name" o .text
    table := ← slots.required "table" o .text
    column := ← slots.required "column" o .text
    referencedTable := ← slots.required "referenced_table" o .text
    onDelete := ← slots.required "on_delete" o OnDelete.decode }

end ForeignKey

namespace Check

def fields : List Field :=
  [.required "name" .text, .required "expression" .text]

def encode (c : Check) : Value :=
  .object [("expression", .text c.expression), ("name", .text c.name)]

def decode : Decoder Check := fun o v => do
  let slots ← Slots.ofValue "struct CheckConstraint" fields o v
  return {
    name := ← slots.required "name" o .text
    expression := ← slots.required "expression" o .text }

end Check

namespace Index

def fields : List Field :=
  [.required "name" .text, .required "table" .text, .required "column" .text]

def encode (i : Index) : Value :=
  .object [("column", .text i.column), ("name", .text i.name), ("table", .text i.table)]

def decode : Decoder Index := fun o v => do
  let slots ← Slots.ofValue "struct Index" fields o v
  return {
    name := ← slots.required "name" o .text
    table := ← slots.required "table" o .text
    column := ← slots.required "column" o .text }

end Index

namespace Table

def fields : List Field :=
  [.required "name" .text, .required "columns" (.list Column.decode),
    .defaulted "composite_key" [] (.optional (.list .text)),
    .defaulted "unique_keys" [] (.list (.list .text)),
    .defaulted "foreign_keys" [] (.list ForeignKey.decode),
    .defaulted "checks" [] (.list Check.decode)]

def encode (t : Table) : Value :=
  .object ([("checks", .list (t.checks.map (·.encode))),
      ("columns", .list (t.columns.map (·.encode)))]
    ++ t.compositeKey.toList.map (fun key => ("composite_key", .texts key))
    ++ [("foreign_keys", .list (t.foreignKeys.map (·.encode))), ("name", .text t.name),
      ("unique_keys", .list (t.uniqueKeys.map .texts))])

def decode : Decoder Table := fun o v => do
  let slots ← Slots.ofValue "struct Table" fields o v
  return {
    name := ← slots.required "name" o .text
    columns := ← slots.required "columns" o (.list Column.decode)
    compositeKey := ← slots.defaulted "composite_key" o (.optional (.list .text)) none
    uniqueKeys := ← slots.defaulted "unique_keys" o (.list (.list .text)) []
    foreignKeys := ← slots.defaulted "foreign_keys" o (.list ForeignKey.decode) []
    checks := ← slots.defaulted "checks" o (.list Check.decode) [] }

end Table

namespace Statement

def tags : List String :=
  ["comment", "createTable", "addColumn", "addForeignKey", "replacePrimaryKey", "createIndex"]

def readTag (v : Value) : Except DecodeError String := do
  let name ← tagName v
  if tags.contains name then .ok name else .error (.unknownVariant name tags)

def one {α : Type} (title field : String) (decode : Decoder α) (v : Value) :
    Except DecodeError α := do
  let slots ← Slots.ofValue title [.required field decode] .element v
  slots.required field .element decode

def two {α β : Type} (title : String) (first : String × Decoder α)
    (second : String × Decoder β) (v : Value) : Except DecodeError (α × β) := do
  let slots ← Slots.ofValue title [.required first.1 first.2, .required second.1 second.2] .element v
  return (← slots.required first.1 .element first.2, ← slots.required second.1 .element second.2)

def decodeTagged (tag : String) (rest : Value) : Except DecodeError Statement :=
  if tag = "comment" then
    (one "struct variant DdlStatement::Comment" "text" .text rest).map .comment
  else if tag = "createTable" then
    (one "struct variant DdlStatement::CreateTable" "table" Table.decode rest).map .createTable
  else if tag = "addColumn" then
    (two "struct variant DdlStatement::AddColumn" ("table", .text) ("column", Column.decode)
      rest).map fun (t, c) => .addColumn t c
  else if tag = "addForeignKey" then
    (one "struct variant DdlStatement::AddForeignKey" "foreign_key" ForeignKey.decode
      rest).map .addForeignKey
  else if tag = "replacePrimaryKey" then
    (two "struct variant DdlStatement::ReplacePrimaryKey" ("table", .text)
      ("columns", .list .text) rest).map fun (t, cs) => .replacePrimaryKey t cs
  else
    (one "struct variant DdlStatement::CreateIndex" "index" Index.decode rest).map .createIndex

def decode : Decoder Statement := fun _ v => do
  let (tag, rest) ← splitTag "statement" "internally tagged enum DdlStatement" readTag v
  decodeTagged tag rest

def encode : Statement → Value
  | .comment text => .object [("statement", .text "comment"), ("text", .text text)]
  | .createTable t => .object [("statement", .text "createTable"), ("table", t.encode)]
  | .addColumn table c =>
    .object [("column", c.encode), ("statement", .text "addColumn"), ("table", .text table)]
  | .addForeignKey k =>
    .object [("foreign_key", k.encode), ("statement", .text "addForeignKey")]
  | .replacePrimaryKey table columns =>
    .object [("columns", .texts columns), ("statement", .text "replacePrimaryKey"),
      ("table", .text table)]
  | .createIndex i => .object [("index", i.encode), ("statement", .text "createIndex")]

end Statement
end SchemaSynth
