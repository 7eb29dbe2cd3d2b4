import SchemaSynth.Text.Graphic

/-! Text between double quotes, as messages show it. -/
namespace SchemaSynth.Text

private def code (c : Char) : List Char :=
  '\\' :: 'u' :: '\x7b' :: (Nat.toDigits 16 c.toNat ++ ['\x7d'])

private def shown (c : Char) : List Char :=
  match c with
  | '"' => ['\\','"']
  | '\\' => ['\\','\\']
  | '\n' => ['\\','n']
  | '\r' => ['\\','r']
  | '\t' => ['\\','t']
  | '\x00' => ['\\','0']
  | c => if isGraphic c then [c] else code c

/-- Quotes and backslashes are escaped, line controls by letter, and other characters without a
shape of their own by code point. -/
def quoted (s : String) : String :=
  "\"" ++ String.ofList (s.toList.flatMap shown) ++ "\""

end SchemaSynth.Text
