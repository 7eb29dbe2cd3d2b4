import SchemaSynth.Json.Value

/-! JSON text of a value, on one line or indented. -/
namespace SchemaSynth.Json

def escapeCode (n : Nat) : List Char :=
  ['\\','u','0','0',Nat.digitChar (n / 16),Nat.digitChar (n % 16)]

/-- Quotes, backslashes and the control characters below the blank are escaped, nothing else. -/
def escape (c : Char) : List Char :=
  match c with
  | '"' => ['\\','"']
  | '\\' => ['\\','\\']
  | '\n' => ['\\','n']
  | '\r' => ['\\','r']
  | '\t' => ['\\','t']
  | c =>
    if c.toNat == 8 then ['\\','b']
    else if c.toNat == 12 then ['\\','f']
    else if c.toNat < 32 then escapeCode c.toNat
    else [c]

def quote (s : String) : String :=
  "\"" ++ String.ofList (s.toList.flatMap escape) ++ "\""

mutual

def Value.compact : Value → String
  | .null => "null"
  | .boolean b => if b then "true" else "false"
  | .number n => n.toText
  | .text s => quote s
  | .list items => "[" ++ ",".intercalate (compactItems items) ++ "]"
  | .object fields => "\x7b" ++ ",".intercalate (compactFields fields) ++ "\x7d"

def compactItems : List Value → List String
  | [] => []
  | v :: rest => v.compact :: compactItems rest

def compactFields : List (String × Value) → List String
  | [] => []
  | (k, v) :: rest => (quote k ++ ":" ++ v.compact) :: compactFields rest

end

def lineBreak (depth : Nat) : String :=
  String.ofList ('\n' :: List.replicate (2 * depth) ' ')

def block (opening closing : String) (depth : Nat) (lines : List String) : String :=
  if lines.isEmpty then opening ++ closing
  else opening ++ lineBreak (depth + 1) ++ ("," ++ lineBreak (depth + 1)).intercalate lines
    ++ lineBreak depth ++ closing

mutual

/-- The text with one item or field on each line, two blanks further in than what holds it. -/
def Value.indented (depth : Nat) : Value → String
  | .list items => block "[" "]" depth (indentedItems (depth + 1) items)
  | .object fields => block "\x7b" "\x7d" depth (indentedFields (depth + 1) fields)
  | v => v.compact

def indentedItems (depth : Nat) : List Value → List String
  | [] => []
  | v :: rest => v.indented depth :: indentedItems depth rest

def indentedFields (depth : Nat) : List (String × Value) → List String
  | [] => []
  | (k, v) :: rest => (quote k ++ ": " ++ v.indented depth) :: indentedFields depth rest

end

end SchemaSynth.Json
