import SchemaSynth.Json.Cursor
import SchemaSynth.Number.Binary64

/-! Numbers, strings and words of a JSON text. -/
namespace SchemaSynth.Json

/-- Whether a value is kept or passed over. A value passed over is read more freely: its numbers
have no range, its surrogates need no partner, its brackets nest without limit. -/
inductive Use
  | keep
  | pass
deriving DecidableEq

def isDigit (c : Char) : Bool :=
  '0' ≤ c && c ≤ '9'

def digitValues (cs : List Char) : List Nat :=
  cs.map fun c => c.toNat - 48

/-- Appends digits to a significand of 64 bits until one does not fit. The counts are of the digits
taken and of those left. -/
def absorb (significand : Nat) : List Nat → Nat × Nat × Nat
  | [] => (significand, 0, 0)
  | d :: ds =>
    if significand * 10 + d < Word.limit 64 then
      let (s, taken, left) := absorb (significand * 10 + d) ds
      (s, taken + 1, left)
    else (significand, 0, ds.length + 1)

/-- The exponent the digits write if it fits 31 bits, else the digits behind the one that is too
much. -/
def absorbExponent (exponent : Nat) : List Char → Nat ⊕ List Char
  | [] => .inl exponent
  | d :: ds =>
    let e := exponent * 10 + (d.toNat - 48)
    if e < Word.half 32 then absorbExponent e ds else .inr ds

def endOfNumber (use : Use) (c : Cursor) : Fault :=
  if c.rest.isEmpty && use = .keep then .endInValue else .badNumber

def finishDouble (use : Use) (negative : Bool) (significand : Nat) (exponent : Int)
    (c : Cursor) : Except TextError (Number × Cursor) :=
  if use = .pass then .ok (.integer 0, c) else
  match Binary64.ofParts negative significand exponent with
  | some d => .ok (.double d, c)
  | none => c.faultHere .numberRange

def readExponent (use : Use) (negative : Bool) (significand : Nat) (exponent : Int)
    (c : Cursor) : Except TextError (Number × Cursor) :=
  let (sign, c) :=
    match c.rest with
    | '+' :: _ => (1, c.next)
    | '-' :: _ => (-1, c.next)
    | _ => ((1 : Int), c)
  let (digits, after) := c.takeWhile isDigit
  if digits.isEmpty then c.faultAhead (endOfNumber use c) else
  match absorbExponent 0 digits with
  | .inl e => finishDouble use negative significand (exponent + sign * e) after
  | .inr left =>
    if use = .pass || significand == 0 || sign < 0 then
      .ok (.double (Binary64.zero negative), after)
    else .error ⟨.numberRange, ⟨after.place.line, after.place.column - left.length⟩⟩

def readFraction (use : Use) (negative : Bool) (significand : Nat) (exponent : Int)
    (c : Cursor) : Except TextError (Number × Cursor) :=
  let (digits, after) := c.takeWhile isDigit
  if digits.isEmpty then c.faultAhead (endOfNumber use c) else
  let (significand, taken, _) := absorb significand (digitValues digits)
  let exponent := exponent - taken
  match after.rest with
  | 'e' :: _ | 'E' :: _ => readExponent use negative significand exponent after.next
  | _ => finishDouble use negative significand exponent after

/-- A number without fraction and exponent. `dropped` digits did not fit the significand. -/
def wholeNumber (use : Use) (negative : Bool) (significand dropped : Nat) (c : Cursor) :
    Except TextError (Number × Cursor) :=
  if dropped == 0 && !negative then .ok (.integer significand, c)
  else if dropped == 0 && significand != 0 && significand ≤ Word.half 64 then
    .ok (.integer (-significand), c)
  else finishDouble use negative significand dropped c

/-- A number behind its sign: an integer if it has neither fraction nor exponent and fits 64 bits,
and is not negative zero; else a double. -/
def readNumber (use : Use) (negative : Bool) (c : Cursor) : Except TextError (Number × Cursor) :=
  let (digits, after) := c.takeWhile isDigit
  match digits with
  | [] => c.faultAhead (endOfNumber use c)
  | '0' :: _ :: _ => c.next.faultAhead .badNumber
  | _ =>
    let (significand, _, dropped) := absorb 0 (digitValues digits)
    match after.rest with
    | '.' :: _ => readFraction use negative significand dropped after.next
    | 'e' :: _ | 'E' :: _ => readExponent use negative significand dropped after.next
    | _ => wholeNumber use negative significand dropped after

def readWord {α : Type} (value : α) : List Char → Cursor → Except TextError (α × Cursor)
  | [], c => .ok (value, c)
  | x :: xs, c =>
    match c.rest with
    | [] => c.faultHere .endInValue
    | y :: _ => if x = y then readWord value xs c.next else c.faultAhead .wordExpected

def hexValue (c : Char) : Option Nat :=
  if '0' ≤ c && c ≤ '9' then some (c.toNat - 48)
  else if 'a' ≤ c && c ≤ 'f' then some (c.toNat - 87)
  else if 'A' ≤ c && c ≤ 'F' then some (c.toNat - 55)
  else none

def hexNumber (n : Nat) : List Char → Option Nat
  | [] => some n
  | c :: cs => (hexValue c).bind fun d => hexNumber (n * 16 + d) cs

def readHex (c : Cursor) : Except TextError (Nat × Cursor) :=
  if !c.hasBytes 4 then c.finish.faultHere .endInText else
  match hexNumber 0 (c.rest.take 4) with
  | some n => .ok (n, c.next.next.next.next)
  | none => .error ⟨.badEscape, c.placeAfter 4⟩

def isLeading (n : Nat) : Bool :=
  0xD800 ≤ n && n ≤ 0xDBFF

def isTrailing (n : Nat) : Bool :=
  0xDC00 ≤ n && n ≤ 0xDFFF

def expectAfterPairHalf (x : Char) (c : Cursor) : Except TextError (Unit × Cursor) :=
  match c.rest with
  | [] => c.faultHere .endInText
  | y :: _ => if x = y then .ok ((), c.next) else c.faultAhead .unfinishedPair

def readCodePoint (use : Use) (c : Cursor) : Except TextError (Char × Cursor) := do
  let (n, c) ← readHex c
  if use = .pass then return (' ', c)
  if isTrailing n then c.faultHere .lonePairHalf
  else if isLeading n then
    let ((), c) ← expectAfterPairHalf '\\' c
    let ((), c) ← expectAfterPairHalf 'u' c
    let (m, c) ← readHex c
    if isTrailing m then
      return (Char.ofNat (0x10000 + (n - 0xD800) * 0x400 + (m - 0xDC00)), c)
    else c.faultHere .lonePairHalf
  else return (Char.ofNat n, c)

def readEscape (use : Use) (c : Cursor) : Except TextError (Char × Cursor) :=
  match c.rest with
  | [] => c.faultHere .endInText
  | x :: _ =>
    match x with
    | '"' | '\\' | '/' => .ok (x, c.next)
    | 'b' => .ok (Char.ofNat 8, c.next)
    | 'f' => .ok (Char.ofNat 12, c.next)
    | 'n' => .ok ('\n', c.next)
    | 'r' => .ok ('\r', c.next)
    | 't' => .ok ('\t', c.next)
    | 'u' => readCodePoint use c.next
    | _ => c.faultAhead .badEscape

def controlFault {α : Type} (use : Use) (c : Cursor) : Except TextError α :=
  if use = .keep then c.faultAhead .controlCharacter else c.faultHere .controlCharacter

/-- A string behind its opening quote, with at most as many characters as there is fuel. -/
def readText (use : Use) : Nat → List Char → Cursor → Except TextError (String × Cursor)
  | 0, _, c => c.faultHere .endInText
  | fuel + 1, done, c =>
    match c.rest with
    | [] => c.faultHere .endInText
    | '"' :: _ => .ok (String.ofList done.reverse, c.next)
    | '\\' :: _ => do
      let (x, c) ← readEscape use c.next
      readText use fuel (x :: done) c
    | x :: _ => if x.toNat < 32 then controlFault use c else readText use fuel (x :: done) c.next

end SchemaSynth.Json
