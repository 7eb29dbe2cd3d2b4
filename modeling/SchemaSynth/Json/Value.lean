import SchemaSynth.Number.Shortest

/-! JSON values. An object is a list of fields; the canonical form orders them by key. -/
namespace SchemaSynth.Json

inductive Number
  | integer (value : Int)
  | double (value : Binary64)
deriving DecidableEq

/-- Integers in decimal, doubles with the fewest digits that read back. -/
def Number.toText : Number → String
  | .integer i => toString i
  | .double d => d.toText

/-- A JSON value, the fields of an object in some order and perhaps repeated. -/
inductive Value
  | null
  | boolean (value : Bool)
  | number (value : Number)
  | text (value : String)
  | list (items : List Value)
  | object (fields : List (String × Value))

namespace Value

def kind : Value → String
  | .null => "null"
  | .boolean _ => "a boolean"
  | .number _ => "a number"
  | .text _ => "a string"
  | .list _ => "a list"
  | .object _ => "an object"

def texts (ss : List String) : Value :=
  .list (ss.map .text)

def ofNat (n : Nat) : Value :=
  .number (.integer n)

end Value

def putField (key : String) (value : Value) : List (String × Value) → List (String × Value)
  | [] => [(key, value)]
  | (k, v) :: rest =>
    if key < k then (key, value) :: (k, v) :: rest
    else if key = k then (key, value) :: rest
    else (k, v) :: putField key value rest

mutual

/-- The value with the fields of every object in the order of their keys; of repeated keys the last
one counts. -/
def Value.canonical : Value → Value
  | .list items => .list (canonicalItems items)
  | .object fields => .object (canonicalFields [] fields)
  | v => v

def canonicalItems : List Value → List Value
  | [] => []
  | v :: rest => v.canonical :: canonicalItems rest

def canonicalFields (done : List (String × Value)) :
    List (String × Value) → List (String × Value)
  | [] => done
  | (k, v) :: rest => canonicalFields (putField k v.canonical done) rest

end

end SchemaSynth.Json
