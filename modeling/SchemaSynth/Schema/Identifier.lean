import SchemaSynth.Text.Blank
import SchemaSynth.Text.Bytes

/-! Identifiers of the database: lower case letters, digits and underscores, of at most 63 bytes. -/
namespace SchemaSynth.Identifier

def maxBytes : Nat := 63

def unnamed : String := "unnamed"

def isWord (c : Char) : Bool :=
  c.isAlphanum || c = '_'

/-- One underscore for every run of blanks. The flag tells of a run that goes on. -/
def joinBlanks (inRun : Bool) : List Char → List Char
  | [] => []
  | c :: cs =>
    if Text.isBlank c then if inRun then joinBlanks true cs else '_' :: joinBlanks true cs
    else c :: joinBlanks false cs

def trimUnderscores (cs : List Char) : List Char :=
  ((cs.dropWhile (· = '_')).reverse.dropWhile (· = '_')).reverse

/-- The identifier a name stands for: runs of blanks become underscores, other characters that are
no word characters go, and so do underscores at the ends. Nothing of a name but its letters and
digits survives, so the result is safe to write into a statement. -/
def sanitizeChars (name : List Char) : List Char :=
  let words := (joinBlanks false (Text.trim name)).filter isWord
  let identifier := (trimUnderscores words).map Char.toLower
  if identifier = [] then unnamed.toList else identifier

def sanitize (name : String) : String :=
  String.ofList (sanitizeChars name.toList)

/-- The longest start of whole characters within the limit. -/
def truncate (name : String) : String :=
  String.ofList (Text.takeBytes maxBytes name.toList)

/-- A base with a suffix, the base shortened so that the suffix is kept whole. -/
def suffixed (base suffix : String) : String :=
  String.ofList (Text.takeBytes (maxBytes - Text.byteLength suffix.toList) base.toList) ++ suffix

def joined (parts : List String) : String :=
  truncate ("_".intercalate parts)

end SchemaSynth.Identifier
