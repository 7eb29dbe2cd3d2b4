import SchemaSynth.Json.Fault

/-! A JSON text in the course of being read: what is left of it, and how far the reading has come.
-/
namespace SchemaSynth.Json

structure Cursor where
  rest : List Char
  place : Place

namespace Cursor

def ofText (s : String) : Cursor :=
  ⟨s.toList, ⟨1, 0⟩⟩

def next (c : Cursor) : Cursor :=
  match c.rest with
  | [] => c
  | x :: rest => ⟨rest, c.place.after x⟩

def ahead (c : Cursor) : Place :=
  match c.rest with
  | [] => c.place
  | x :: _ => if x = '\n' then ⟨c.place.line + 1, 0⟩ else ⟨c.place.line, c.place.column + 1⟩

def faultAhead {α : Type} (c : Cursor) (f : Fault) : Except TextError α :=
  .error ⟨f, c.ahead⟩

def faultHere {α : Type} (c : Cursor) (f : Fault) : Except TextError α :=
  .error ⟨f, c.place⟩

def runWhile (p : Char → Bool) (place : Place) : List Char → List Char × Cursor
  | [] => ([], ⟨[], place⟩)
  | x :: rest =>
    if p x then
      let (run, c) := runWhile p (place.after x) rest
      (x :: run, c)
    else ([], ⟨x :: rest, place⟩)

def takeWhile (p : Char → Bool) (c : Cursor) : List Char × Cursor :=
  runWhile p c.place c.rest

def isGap (x : Char) : Bool :=
  x = ' ' || x = '\n' || x = '\t' || x = '\r'

def skipBlanks (c : Cursor) : Cursor :=
  (c.takeWhile isGap).2

def finish (c : Cursor) : Cursor :=
  (c.takeWhile fun _ => true).2

def placeAfterBytes (n : Nat) (place : Place) : List Char → Place
  | [] => place
  | x :: rest =>
    if n = 0 then place
    else if x.utf8Size ≤ n then placeAfterBytes (n - x.utf8Size) (place.after x) rest
    else ⟨place.line, place.column + n⟩

def placeAfter (n : Nat) (c : Cursor) : Place :=
  placeAfterBytes n c.place c.rest

def hasBytes (n : Nat) (c : Cursor) : Bool :=
  n ≤ (c.rest.take n).foldl (fun total x => total + x.utf8Size) 0

end Cursor
end SchemaSynth.Json
