/-! The content of a TOML text, and how its tables are put together. -/
namespace SchemaSynth.Toml

/-- How a table came to be: by a header of its own, by the header of a table inside of it, by a
dotted key, or between braces. -/
inductive Making
  | header
  | passage
  | dotted
  | braces
deriving DecidableEq

/-- A value. Numbers and moments are not told apart further. -/
inductive Value
  | text (value : String)
  | boolean (value : Bool)
  | number
  | moment
  | list (items : List Value)
  | table (making : Making) (fields : List (String × Value))
  | tables (items : List Value)

abbrev Fields := List (String × Value)

namespace Fields

def put (key : String) (v : Value) : Fields → Fields
  | [] => [(key, v)]
  | (k, w) :: rest => if k = key then (k, v) :: rest else (k, w) :: put key v rest

abbrev Change := Making → Fields → Option Fields

/-- Changes the table at the end of a path. Missing tables are made on the way. Tables between
braces are closed, and a dotted key does not enter tables with a header; of several tables the last
one is entered. -/
def change (making : Making) (f : Change) (own : Making) (fields : Fields) :
    List String → Option Fields
  | [] => f own fields
  | key :: path =>
    match fields.lookup key with
    | none => do
      return fields.put key (.table making (← change making f making [] path))
    | some (.table m inner) =>
      if m = .braces ∨ (making = .dotted ∧ m = .header) then none
      else do return fields.put key (.table m (← change making f m inner path))
    | some (.tables items) =>
      match items.reverse with
      | .table m inner :: before => do
        return fields.put key
          (.tables (.table m (← change making f m inner path) :: before).reverse)
      | _ => none
    | some _ => none

/-- Adds a field of a new name. A table that a dotted key leads to has to be made of dotted keys. -/
private def add (key : String) (v : Value) (direct : Bool) : Change := fun own fields =>
  if (own = .dotted ∧ direct) ∨ (own ≠ .dotted ∧ !direct) ∨ (fields.lookup key).isSome then none
  else some (fields.put key v)

def assign (fields : Fields) (own : Making) (keys : List String) (v : Value) : Option Fields := do
  let key ← keys.getLast?
  change .dotted (add key v (keys.length == 1)) own fields keys.dropLast

def openTable (fields : Fields) (path : List String) : Option Fields := do
  let key ← path.getLast?
  change .passage (fun _ fs =>
    match fs.lookup key with
    | none => some (fs.put key (.table .header []))
    | some (.table .passage inner) => some (fs.put key (.table .header inner))
    | some _ => none) .header fields path.dropLast

def openItem (fields : Fields) (path : List String) : Option Fields := do
  let key ← path.getLast?
  change .passage (fun _ fs =>
    match fs.lookup key with
    | none => some (fs.put key (.tables [.table .header []]))
    | some (.tables items) => some (fs.put key (.tables (items ++ [.table .header []])))
    | some _ => none) .header fields path.dropLast

def assignIn (fields : Fields) (path keys : List String) (v : Value) : Option Fields :=
  change .passage (fun own fs => fs.assign own keys v) .header fields path

end Fields
end SchemaSynth.Toml
