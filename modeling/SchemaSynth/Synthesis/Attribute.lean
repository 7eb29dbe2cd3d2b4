import SchemaSynth.Schema.Column
import SchemaSynth.Schema.Identifier
import SchemaSynth.Text.Lower

/-! Attribute declarations such as `+ age: int`, and the column types that type words stand for. -/
namespace SchemaSynth.Attribute

/-- The type of an attribute whose type is one of the words, in whatever case and between blanks.
Any other type is text. -/
def typeOfWord (word : String) : ColumnType :=
  let w := String.ofList ((Text.trim word.toList).map Text.lower)
  if ["int", "integer", "number", "long", "short"].contains w then .integer
  else if ["float", "double", "real", "decimal"].contains w then .numeric
  else if ["bool", "boolean"].contains w then .boolean
  else if ["date", "datetime", "timestamp"].contains w then .timestamp
  else .text

def isVisibility (c : Char) : Bool :=
  c = '+' || c = '-' || c = '#' || c = '~'

def stripVisibility (declaration : List Char) : List Char :=
  match Text.trimStart declaration with
  | [] => []
  | c :: cs => Text.trim (if isVisibility c then Text.trimStart cs else c :: cs)

def splitAtColon : List Char → Option (List Char × List Char)
  | [] => none
  | c :: cs =>
    if c = ':' then some ([], cs)
    else (splitAtColon cs).map fun (before, after) => (c :: before, after)

/-- The column name and type of a declaration. Nothing is refused: without a colon the whole
declaration is the name and the type is text. -/
def parse (raw : String) : String × ColumnType :=
  let declaration := stripVisibility raw.toList
  match splitAtColon declaration with
  | some (name, word) =>
    (Identifier.sanitize (String.ofList name), typeOfWord (String.ofList word))
  | none => (Identifier.sanitize (String.ofList declaration), .text)

end SchemaSynth.Attribute
