import SchemaSynth.Number.Binary64
import SchemaSynth.Toml.Value

/-! Reading TOML text. A reading gives its result and the rest of the text, or nothing at a fault.
-/
namespace SchemaSynth.Toml

def nestingLimit : Nat := 79

private def skipSpaces (cs : List Char) : List Char :=
  cs.dropWhile fun c => c = ' ' || c = '\t'

/-- The characters of comments and literal strings: no control but the tab. -/
private def isLineChar (c : Char) : Bool :=
  c = '\t' || (0x20 ≤ c.toNat && c.toNat != 0x7F)

/-- The rest behind the end of a line. A carriage return needs its line feed. -/
private def lineEnd? : List Char → Option (List Char)
  | '\n' :: cs => some cs
  | '\r' :: '\n' :: cs => some cs
  | _ => none

private def skipComment : List Char → List Char
  | '#' :: cs => cs.dropWhile isLineChar
  | cs => cs

private def skipGaps : Nat → List Char → List Char
  | 0, cs => cs
  | fuel + 1, cs =>
    let cs := skipComment (skipSpaces cs)
    match lineEnd? cs with
    | some cs => skipGaps fuel cs
    | none => cs

private def hexDigit? (c : Char) : Option Nat :=
  if c.isDigit then some (c.toNat - 48)
  else if 'a' ≤ c && c ≤ 'f' then some (c.toNat - 87)
  else if 'A' ≤ c && c ≤ 'F' then some (c.toNat - 55)
  else none

private def codePoint (digits : Nat) (cs : List Char) : Option (Char × List Char) := do
  if (cs.take digits).length < digits then none
  let n ← (cs.take digits).foldlM (fun n c => (hexDigit? c).map (n * 16 + ·)) 0
  if (0xD800 ≤ n && n ≤ 0xDFFF) || 0x10FFFF < n then none
  else some (Char.ofNat n, cs.drop digits)

private def escape : List Char → Option (Char × List Char)
  | 'b' :: cs => some (Char.ofNat 8, cs)
  | 't' :: cs => some ('\t', cs)
  | 'n' :: cs => some ('\n', cs)
  | 'f' :: cs => some (Char.ofNat 12, cs)
  | 'r' :: cs => some ('\r', cs)
  | '"' :: cs => some ('"', cs)
  | '\\' :: cs => some ('\\', cs)
  | 'u' :: cs => codePoint 4 cs
  | 'U' :: cs => codePoint 8 cs
  | _ => none

private def isBasicChar (c : Char) : Bool :=
  isLineChar c && c != '"' && c != '\\'

private def basicString : Nat → List Char → List Char → Option (String × List Char)
  | 0, _, _ => none
  | fuel + 1, done, cs =>
    match cs with
    | '"' :: cs => some (String.ofList done.reverse, cs)
    | '\\' :: cs => do
      let (c, cs) ← escape cs
      basicString fuel (c :: done) cs
    | c :: cs => if isBasicChar c then basicString fuel (c :: done) cs else none
    | [] => none

private def literalString (cs : List Char) : Option (String × List Char) :=
  let run := cs.takeWhile fun c => isLineChar c && c != '\''
  match cs.drop run.length with
  | '\'' :: cs => some (String.ofList run, cs)
  | _ => none

private def dropLineEnd (cs : List Char) : List Char :=
  (lineEnd? cs).getD cs

/-- The quotes at the end of a string over several lines: three close it, and one or two before them
belong to it. -/
private def closingQuotes (quote : Char) (cs : List Char) : Option (Nat × List Char) :=
  let n := min 5 (cs.takeWhile (· = quote)).length
  if 3 ≤ n then some (n - 3, cs.drop n) else none

private def skipBlankLines : List Char → List Char
  | ' ' :: cs => skipBlankLines cs
  | '\t' :: cs => skipBlankLines cs
  | '\n' :: cs => skipBlankLines cs
  | '\r' :: '\n' :: cs => skipBlankLines cs
  | cs => cs

private def continued? (cs : List Char) : Option (List Char) :=
  (lineEnd? (skipSpaces cs)).map skipBlankLines

private def longString (quote : Char) : Nat → List Char → List Char → Option (String × List Char)
  | 0, _, _ => none
  | fuel + 1, done, cs =>
    match closingQuotes quote cs with
    | some (extra, rest) =>
      some (String.ofList (done.reverse ++ List.replicate extra quote), rest)
    | none =>
      match lineEnd? cs with
      | some rest => longString quote fuel ('\n' :: done) rest
      | none =>
        match cs with
        | [] => none
        | c :: rest =>
          if quote = '"' ∧ c = '\\' then
            match continued? rest with
            | some rest => longString quote fuel done rest
            | none => do
              let (x, rest) ← escape rest
              longString quote fuel (x :: done) rest
          else if isLineChar c then longString quote fuel (c :: done) rest
          else none

private def string : List Char → Option (String × List Char)
  | '"' :: '"' :: '"' :: cs => longString '"' (cs.length + 1) [] (dropLineEnd cs)
  | '\'' :: '\'' :: '\'' :: cs => longString '\'' (cs.length + 1) [] (dropLineEnd cs)
  | '"' :: cs => basicString (cs.length + 1) [] cs
  | '\'' :: cs => literalString cs
  | _ => none

private def isBare (c : Char) : Bool :=
  c.isAlphanum || c = '_' || c = '-'

private def simpleKey : List Char → Option (String × List Char)
  | '"' :: cs => basicString (cs.length + 1) [] cs
  | '\'' :: cs => literalString cs
  | cs =>
    let run := cs.takeWhile isBare
    if run.isEmpty then none else some (String.ofList run, cs.drop run.length)

/-- A key of names with dots between them, and the blanks around each. There is one at least, and
not more than the first number. -/
private def dottedKey : Nat → List Char → Option (List String × List Char)
  | 0, _ => none
  | more + 1, cs => do
    let (key, cs) ← simpleKey (skipSpaces cs)
    match skipSpaces cs with
    | '.' :: cs => do
      let (keys, cs) ← dottedKey more cs
      return (key :: keys, cs)
    | cs => return ([key], cs)

private def digitRun (isDigit : Char → Bool) (cs : List Char) : Option (List Char × List Char) :=
  let run := cs.takeWhile fun c => isDigit c || c = '_'
  let digits := run.filter (· != '_')
  if run.head? = some '_' ∨ run.getLast? = some '_' ∨ digits.isEmpty ∨ doubled run then none
  else some (digits, cs.drop run.length)
where
  doubled : List Char → Bool
    | '_' :: '_' :: _ => true
    | _ :: cs => doubled cs
    | [] => false

private def numeral (base : Nat) (digits : List Char) : Nat :=
  digits.foldl (fun n c => n * base + (hexDigit? c).getD 0) 0

private def sign : List Char → Bool × List Char
  | '-' :: cs => (true, cs)
  | '+' :: cs => (false, cs)
  | cs => (false, cs)

private def based (base : Nat) (isDigit : Char → Bool) (cs : List Char) :
    Option (Value × List Char) := do
  let (digits, cs) ← digitRun isDigit cs
  if numeral base digits < Word.half 64 then some (.number, cs) else none

private def exponent? : List Char → Option (Option Int × List Char)
  | e :: cs =>
    if e = 'e' ∨ e = 'E' then do
      let (negative, cs) := sign cs
      let (digits, cs) ← digitRun Char.isDigit cs
      let n : Int := numeral 10 digits
      return (some (if negative then -n else n), cs)
    else some (none, e :: cs)
  | [] => some (none, [])

/-- A decimal number. One without fraction and exponent has to fit 64 bits, and zeros in front of
other digits are refused. Any other may be too small for a double, but not too large. -/
private def decimal (cs : List Char) : Option (Value × List Char) := do
  let (negative, cs) := sign cs
  let (whole, cs) ← digitRun Char.isDigit cs
  if whole.head? = some '0' ∧ 1 < whole.length then none
  let (fraction, cs) ← match cs with
    | '.' :: cs => (digitRun Char.isDigit cs).map fun (ds, cs) => (some ds, cs)
    | cs => some (none, cs)
  let (exponent, cs) ← exponent? cs
  if fraction.isNone && exponent.isNone then
    if numeral 10 whole < Word.half 64 + (if negative then 1 else 0) then some (.number, cs) else none
  else
    let digits := fraction.getD []
    let scale := exponent.getD 0 - digits.length
    if negative || (Binary64.ofDecimal false (numeral 10 (whole ++ digits)) scale).isSome then
      some (.number, cs)
    else none

private def number (cs : List Char) : Option (Value × List Char) :=
  match cs with
  | '0' :: 'x' :: cs => based 16 (fun c => (hexDigit? c).isSome) cs
  | '0' :: 'o' :: cs => based 8 (fun c => '0' ≤ c && c ≤ '7') cs
  | '0' :: 'b' :: cs => based 2 (fun c => c = '0' || c = '1') cs
  | cs =>
    match (sign cs).2 with
    | 'i' :: 'n' :: 'f' :: rest => some (.number, rest)
    | 'n' :: 'a' :: 'n' :: rest => some (.number, rest)
    | _ => decimal cs

private def fixed (digits low high : Nat) (cs : List Char) : Option (Nat × List Char) :=
  let run := cs.take digits
  let n := numeral 10 run
  if run.length = digits ∧ run.all Char.isDigit ∧ low ≤ n ∧ n ≤ high then some (n, cs.drop digits)
  else none

private def expect (c : Char) : List Char → Option (List Char)
  | [] => none
  | x :: cs => if x = c then some cs else none

private def daysIn (year month : Nat) : Nat :=
  if month = 2 then
    if year % 4 = 0 ∧ (year % 100 ≠ 0 ∨ year % 400 = 0) then 29 else 28
  else if month = 4 ∨ month = 6 ∨ month = 9 ∨ month = 11 then 30
  else 31

private def date (cs : List Char) : Option (List Char) := do
  let (year, cs) ← fixed 4 0 9999 cs
  let (month, cs) ← fixed 2 1 12 (← expect '-' cs)
  let (_, cs) ← fixed 2 1 (daysIn year month) (← expect '-' cs)
  return cs

private def time (cs : List Char) : Option (List Char) := do
  let (_, cs) ← fixed 2 0 23 cs
  let (_, cs) ← fixed 2 0 59 (← expect ':' cs)
  let (_, cs) ← fixed 2 0 60 (← expect ':' cs)
  match cs with
  | '.' :: fraction =>
    let run := fraction.takeWhile Char.isDigit
    if run.isEmpty then none else some (fraction.drop run.length)
  | cs => some cs

private def offset (cs : List Char) : Option (List Char) :=
  match cs with
  | 'Z' :: rest => some rest
  | 'z' :: rest => some rest
  | c :: rest =>
    if c = '+' ∨ c = '-' then do
      let (_, cs) ← fixed 2 0 23 rest
      let (_, cs) ← fixed 2 0 59 (← expect ':' cs)
      return cs
    else some cs
  | [] => some []

private def moment (cs : List Char) : Option (Value × List Char) :=
  match date cs with
  | some rest =>
    match rest with
    | d :: later =>
      if d = 'T' ∨ d = 't' then do return (.moment, ← offset (← time later))
      else if d = ' ' then
        match time later with
        | some later => (offset later).map fun rest => (.moment, rest)
        | none => some (.moment, rest)
      else some (.moment, rest)
    | [] => some (.moment, [])
  | none => (time cs).map fun rest => (.moment, rest)

private def looksLikeMoment (cs : List Char) : Bool :=
  let digits := cs.takeWhile Char.isDigit
  let next := (cs.drop digits.length).head?
  (digits.length == 4 && next == some '-') || (digits.length == 2 && next == some ':')

mutual

def readValue : Nat → Nat → List Char → Option (Value × List Char)
  | 0, _, _ => none
  | fuel + 1, depth, cs =>
    match cs with
    | '"' :: _ => (string cs).map fun (s, cs) => (.text s, cs)
    | '\'' :: _ => (string cs).map fun (s, cs) => (.text s, cs)
    | 't' :: 'r' :: 'u' :: 'e' :: cs => some (.boolean true, cs)
    | 'f' :: 'a' :: 'l' :: 's' :: 'e' :: cs => some (.boolean false, cs)
    | '[' :: cs => if depth = 0 then none else readItems fuel (depth - 1) [] cs
    | '\x7b' :: cs =>
      if depth = 0 then none
      else match skipSpaces cs with
        | '\x7d' :: cs => some (.table .braces [], cs)
        | cs => readFields fuel (depth - 1) [] cs
    | cs => if looksLikeMoment cs then moment cs else number cs

/-- The items of a list behind its bracket, over several lines and with a comma behind the last one
at will. -/
def readItems : Nat → Nat → List Value → List Char → Option (Value × List Char)
  | 0, _, _, _ => none
  | fuel + 1, depth, done, cs =>
    match skipGaps fuel cs with
    | ']' :: cs => some (.list done.reverse, cs)
    | cs => do
      let (v, cs) ← readValue fuel depth cs
      match skipGaps fuel cs with
      | ',' :: cs => readItems fuel depth (v :: done) cs
      | ']' :: cs => some (.list (v :: done).reverse, cs)
      | _ => none

def readFields : Nat → Nat → Fields → List Char → Option (Value × List Char)
  | 0, _, _, _ => none
  | fuel + 1, depth, done, cs => do
    let (keys, cs) ← dottedKey nestingLimit cs
    let (v, cs) ← readValue fuel depth (skipSpaces (← expect '=' cs))
    let done ← done.assign .braces keys v
    match skipSpaces cs with
    | ',' :: cs => readFields fuel depth done cs
    | '\x7d' :: cs => some (.table .braces done, cs)
    | _ => none

end

private def restOfLine (cs : List Char) : Option (List Char) :=
  let cs := skipComment (skipSpaces cs)
  if cs.isEmpty then some [] else lineEnd? cs

private def header (closing : List Char) (cs : List Char) : Option (List String × List Char) := do
  let (path, cs) ← dottedKey nestingLimit cs
  if cs.take closing.length = closing then
    return (path, ← restOfLine (cs.drop closing.length))
  else none

/-- The lines of a text, each added to the fields so far; `path` leads to the table of the last
header. -/
private def readLines : Nat → Fields → List String → List Char → Option Fields
  | 0, _, _, _ => none
  | fuel + 1, fields, path, cs =>
    match skipSpaces cs with
    | [] => some fields
    | '[' :: '[' :: cs => do
      let (path, cs) ← header [']', ']'] cs
      readLines fuel (← fields.openItem path) path cs
    | '[' :: cs => do
      let (path, cs) ← header [']'] cs
      readLines fuel (← fields.openTable path) path cs
    | '#' :: cs => do readLines fuel fields path (← restOfLine ('#' :: cs))
    | cs =>
      match lineEnd? cs with
      | some cs => readLines fuel fields path cs
      | none => do
        let (keys, cs) ← dottedKey nestingLimit cs
        let (v, cs) ← readValue (2 * fuel + 2) nestingLimit (skipSpaces (← expect '=' cs))
        readLines fuel (← fields.assignIn path keys v) path (← restOfLine cs)

/-- The fields that a text writes, or `none` if there is any fault in it. A byte order mark in front
of it is passed over. -/
def read? (s : String) : Option Fields :=
  let cs := match s.toList with
    | c :: cs => if c.toNat == 0xFEFF then cs else c :: cs
    | [] => []
  readLines (cs.length + 1) [] [] cs

end SchemaSynth.Toml
