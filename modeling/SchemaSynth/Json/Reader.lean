import SchemaSynth.Json.Scalar

/-! Reading JSON text. A value that is passed over is recognised by the same recursion as one that
is kept, so whatever can be kept can be passed over, up to the same place. -/
namespace SchemaSynth.Json

/-- The key of a field: the first of its object, or one behind a comma. -/
def readKey (use : Use) (fuel : Nat) (first : Bool) (c : Cursor) :
    Except TextError (String × Cursor) :=
  match c.rest with
  | [] => c.faultHere (if use = .keep && !first then .endInValue else .endInObject)
  | '"' :: _ => readText use fuel [] c.next
  | '\x7d' :: _ =>
    c.faultAhead (if use = .keep && !first then .trailingComma else .keyNotText)
  | _ => c.faultAhead .keyNotText

def readColon (start : Cursor) : Except TextError Cursor :=
  let c := start.skipBlanks
  match c.rest with
  | [] => c.faultHere .endInObject
  | ':' :: _ => .ok c.next
  | _ => c.faultAhead .colonExpected

mutual

/-- A value, with room for `depth` brackets around each other. Two units of fuel for each character
are enough. -/
def readValue (use : Use) : Nat → Nat → Cursor → Except TextError (Value × Cursor)
  | 0, _, c => c.faultHere .endInValue
  | fuel + 1, depth, start =>
    let c := start.skipBlanks
    match c.rest with
    | [] => c.faultHere .endInValue
    | 'n' :: _ => readWord .null ['u','l','l'] c.next
    | 't' :: _ => readWord (.boolean true) ['r','u','e'] c.next
    | 'f' :: _ => readWord (.boolean false) ['a','l','s','e'] c.next
    | '-' :: _ => (readNumber use true c.next).map fun (n, c) => (.number n, c)
    | '"' :: _ => (readText use fuel [] c.next).map fun (s, c) => (.text s, c)
    | '[' :: _ =>
      if use = .keep && depth ≤ 1 then c.faultAhead .tooDeep
      else readItems use fuel (depth - 1) true [] c.next
    | '\x7b' :: _ =>
      if use = .keep && depth ≤ 1 then c.faultAhead .tooDeep
      else readFields use fuel (depth - 1) true [] c.next
    | x :: _ =>
      if '0' ≤ x && x ≤ '9' then (readNumber use false c).map fun (n, c) => (.number n, c)
      else c.faultAhead .valueExpected

/-- The items of a list behind its bracket or behind the items read so far, and the closing bracket.
-/
def readItems (use : Use) : Nat → Nat → Bool → List Value → Cursor →
    Except TextError (Value × Cursor)
  | 0, _, _, _, c => c.faultHere .endInList
  | fuel + 1, depth, first, done, start =>
    let c := start.skipBlanks
    match c.rest with
    | [] => c.faultHere .endInList
    | ']' :: _ => .ok (.list done.reverse, c.next)
    | x :: _ =>
      if !first && x != ',' then c.faultAhead .listSeparator
      else
        let c := if first then c else c.next.skipBlanks
        if use = .keep && c.rest.head? == some ']' then c.faultAhead .trailingComma
        else do
          let (v, c) ← readValue use fuel depth c
          readItems use fuel depth false (v :: done) c

/-- The fields of an object behind its bracket or behind the fields read so far, and the closing
bracket. -/
def readFields (use : Use) : Nat → Nat → Bool → List (String × Value) → Cursor →
    Except TextError (Value × Cursor)
  | 0, _, _, _, c => c.faultHere .endInObject
  | fuel + 1, depth, first, done, start =>
    let c := start.skipBlanks
    match c.rest with
    | [] => c.faultHere .endInObject
    | '\x7d' :: _ => .ok (.object done.reverse, c.next)
    | x :: _ =>
      if !first && x != ',' then c.faultAhead .objectSeparator
      else do
        let (key, c) ← readKey use fuel first (if first then c else c.next.skipBlanks)
        let (v, c) ← readValue use fuel depth (← readColon c)
        readFields use fuel depth false ((key, v) :: done) c

end

def depthLimit : Nat := 128

def fuelFor (c : Cursor) : Nat :=
  2 * c.rest.length + 2

def readEnd (c : Cursor) : Except TextError Unit :=
  let c := c.skipBlanks
  if c.rest.isEmpty then .ok () else c.faultAhead .trailingCharacters

def readWritten (s : String) : Except TextError Value := do
  let start := Cursor.ofText s
  let (v, c) ← readValue .keep (fuelFor start) depthLimit start
  readEnd c
  return v

def read (s : String) : Except TextError Value :=
  (readWritten s).map Value.canonical

end SchemaSynth.Json
