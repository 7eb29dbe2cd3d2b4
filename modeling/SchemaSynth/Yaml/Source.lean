import SchemaSynth.Text.Bytes

/-! A YAML text in the course of being read, and its character classes. -/
namespace SchemaSynth.Yaml

def isBreak (c : Char) : Bool :=
  c = '\r' || c = '\n' || c.toNat == 0x85 || c.toNat == 0x2028 || c.toNat == 0x2029

def isSpace (c : Char) : Bool :=
  c = ' ' || c = '\t'

def isName (c : Char) : Bool :=
  c.isAlphanum || c = '_' || c = '-'

def isAllowed (c : Char) : Bool :=
  let n := c.toNat
  n == 9 || n == 10 || n == 13 || (0x20 ≤ n && n ≤ 0x7E) || n == 0x85 || (0xA0 ≤ n && n ≤ 0xD7FF) ||
    (0xE000 ≤ n && n ≤ 0xFFFD) || 0x10000 ≤ n

/-- The rest of a text, the number of bytes in front of it, and where on which line it starts. The
size is the number of characters of the whole text: no reading takes more steps than that. -/
structure Source where
  rest : List Char
  size : Nat
  index : Nat
  line : Nat
  column : Nat

namespace Source

def ofText (s : String) : Source :=
  ⟨s.toList, s.length, 0, 0, 0⟩

def head? (s : Source) : Option Char :=
  s.rest.head?

def ahead (s : Source) (n : Nat) : Source :=
  { s with
    rest := s.rest.drop n
    index := s.index + Text.byteLength (s.rest.take n)
    column := s.column + n }

def has (s : Source) (c : Char) : Bool :=
  s.head? == some c

def atSpace (s : Source) : Bool :=
  s.head?.any isSpace

def atBreak (s : Source) : Bool :=
  s.head?.any isBreak

def atEnd (s : Source) : Bool :=
  s.rest.isEmpty

def atLineEnd (s : Source) : Bool :=
  s.atBreak || s.atEnd

def atGap (s : Source) : Bool :=
  s.atSpace || s.atLineEnd

def skip (s : Source) : Source :=
  s.ahead 1

/-- Behind the end of the line. A carriage return with a line feed is one end. -/
def skipBreak (s : Source) : Source :=
  let s := s.ahead (if s.has '\r' && (s.ahead 1).has '\n' then 2 else 1)
  { s with line := s.line + 1, column := 0 }

def breakText (s : Source) : List Char :=
  match s.rest with
  | c :: _ => if c.toNat == 0x2028 || c.toNat == 0x2029 then [c] else ['\n']
  | [] => []

def takeWhile (p : Char → Bool) (s : Source) : List Char × Source :=
  let run := s.rest.takeWhile p
  (run, s.ahead run.length)

def skipSpaces (s : Source) : Source :=
  (s.takeWhile isSpace).2

/-- Behind a byte order mark, if the line starts with one. The mark takes up a column. -/
def skipMark (s : Source) : Source :=
  if s.column == 0 && s.head?.any (·.toNat == 0xFEFF) then s.skip else s

def skipComment (s : Source) : Source :=
  if s.has '#' then (s.takeWhile fun c => !isBreak c).2 else s

def atDocumentMark (s : Source) (c : Char) : Bool :=
  s.column == 0 && s.rest.take 3 == [c, c, c] && (s.ahead 3).atGap

def atAnyDocumentMark (s : Source) : Bool :=
  s.atDocumentMark '-' || s.atDocumentMark '.'

end Source
end SchemaSynth.Yaml
