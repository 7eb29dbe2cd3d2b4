import SchemaSynth.Json.Decode

/-! What can be wrong with a JSON text, and where. -/
namespace SchemaSynth.Json

/-- A place in a text. Lines end at line feeds; the column counts the bytes of the line up to the
place. -/
structure Place where
  line : Nat
  column : Nat
deriving DecidableEq

def Place.after (p : Place) (c : Char) : Place :=
  if c = '\n' then ⟨p.line + 1, 0⟩ else ⟨p.line, p.column + c.utf8Size⟩

inductive Fault
  | endInValue
  | endInList
  | endInObject
  | endInText
  | valueExpected
  | wordExpected
  | badNumber
  | numberRange
  | listSeparator
  | objectSeparator
  | colonExpected
  | keyNotText
  | trailingComma
  | trailingCharacters
  | controlCharacter
  | badEscape
  | unfinishedPair
  | lonePairHalf
  | tooDeep
  | undecodable (cause : DecodeError)

def Fault.message : Fault → String
  | .endInValue => "EOF while parsing a value"
  | .endInList => "EOF while parsing a list"
  | .endInObject => "EOF while parsing an object"
  | .endInText => "EOF while parsing a string"
  | .valueExpected => "expected value"
  | .wordExpected => "expected ident"
  | .badNumber => "invalid number"
  | .numberRange => "number out of range"
  | .listSeparator => "expected `,` or `]`"
  | .objectSeparator => "expected `,` or `\x7d`"
  | .colonExpected => "expected `:`"
  | .keyNotText => "key must be a string"
  | .trailingComma => "trailing comma"
  | .trailingCharacters => "trailing characters"
  | .controlCharacter => "control character (\\u0000-\\u001F) found while parsing a string"
  | .badEscape => "invalid escape"
  | .unfinishedPair => "unexpected end of hex escape"
  | .lonePairHalf => "lone leading surrogate in hex escape"
  | .tooDeep => "recursion limit exceeded"
  | .undecodable cause => cause.message

structure TextError where
  fault : Fault
  place : Place

def TextError.message (e : TextError) : String :=
  e.fault.message ++ " at line " ++ toString e.place.line ++ " column " ++ toString e.place.column

end SchemaSynth.Json
