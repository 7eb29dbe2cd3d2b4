import SchemaSynth.Diagram.Import

/-! Reading a request: an object with the boards under one of their keys, or a list with the boards
for its only item. What stands under other keys is passed over. -/
namespace SchemaSynth.Request
open Json

def title : String := "struct GenerateRequest"

def innerDepth : Nat := depthLimit - 1

/-- A second field of boards is a fault behind its key, and behind the closing bracket if that
follows. -/
def repeatedBoards {α : Type} (start : Cursor) : Except TextError α :=
  let c := start.skipBlanks
  match c.rest with
  | '\x7d' :: _ => c.next.faultHere (.undecodable (.repeatedField boardsKey))
  | _ => c.faultHere (.undecodable (.repeatedField boardsKey))

def readFields : Nat → Bool → Option Value → Cursor → Except TextError (Value × Cursor)
  | 0, _, _, c => c.faultHere .endInObject
  | fuel + 1, first, boards, start =>
    let c := start.skipBlanks
    match c.rest with
    | [] => c.faultHere .endInObject
    | '\x7d' :: _ => .ok (boards.getD .null, c.next)
    | x :: _ =>
      if !first && x != ',' then c.faultAhead .objectSeparator
      else do
        let (key, c) ← readKey .keep fuel first (if first then c else c.next.skipBlanks)
        if boardsKeys.contains key then
          if boards.isSome then repeatedBoards c
          else
            let (v, c) ← readValue .keep fuel innerDepth (← readColon c)
            readFields fuel false (some v) c
        else
          let (_, c) ← readValue .pass fuel innerDepth (← readColon c)
          readFields fuel false boards c

def closeList (start : Cursor) : Except TextError Cursor :=
  let c := start.skipBlanks
  match c.rest with
  | [] => c.faultHere .endInList
  | ']' :: _ => .ok c.next
  | ',' :: _ =>
    let c := c.next.skipBlanks
    c.faultAhead (if c.rest.head? = some ']' then .trailingComma else .trailingCharacters)
  | _ => c.faultAhead .trailingCharacters

def readItem (fuel : Nat) (start : Cursor) : Except TextError (Value × Cursor) :=
  let c := start.skipBlanks
  match c.rest with
  | [] => c.faultHere .endInList
  | ']' :: _ => .ok (.null, c.next)
  | _ => do
    let (v, c) ← readValue .keep fuel innerDepth c
    return (v, ← closeList c)

/-- The boards of a request; none are null. -/
def readBoards (s : String) : Except TextError Value := do
  let start := Cursor.ofText s
  let fuel := fuelFor start
  let c := start.skipBlanks
  let (boards, c) ← match c.rest with
    | '\x7b' :: _ => readFields fuel true none c.next
    | '[' :: _ => readItem fuel c.next
    | _ => do
      let (v, c) ← readValue .keep fuel depthLimit c
      c.faultHere (.undecodable (.wrongType v.found title))
  readEnd c
  return boards.canonical

def read (s : String) : Except ImportError Import := do
  match ← (readBoards s).mapError .badJson with
  | .list boards => Import.ofValue (.list boards)
  | _ => .error (.badShape .requestNotListed)

end SchemaSynth.Request
