import SchemaSynth.Json.Printer
import SchemaSynth.Text.Quoted

/-! Decoding of values into records and variants. A record is checked in the order of the value's
own fields, so the fault reported is the first one met there. -/
namespace SchemaSynth.Json

inductive Found
  | null
  | boolean (value : Bool)
  | number (value : Number)
  | text (value : String)
  | list
  | object
  | bareVariant

def Value.found : Value → Found
  | .null => .null
  | .boolean b => .boolean b
  | .number n => .number n
  | .text s => .text s
  | .list _ => .list
  | .object _ => .object

def Found.message : Found → String
  | .null => "null"
  | .boolean b => "boolean `" ++ (if b then "true" else "false") ++ "`"
  | .number (.integer i) => "integer `" ++ toString i ++ "`"
  | .number (.double d) => "floating point `" ++ d.toText ++ "`"
  | .text s => "string " ++ Text.quoted s
  | .list => "sequence"
  | .object => "map"
  | .bareVariant => "unit variant"

inductive DecodeError
  | wrongType (found : Found) (expected : String)
  | wrongValue (found : Found) (expected : String)
  | wrongLength (count : Nat) (expected : String)
  | missingField (name : String)
  | repeatedField (name : String)
  | unknownVariant (name : String) (known : List String)
  | notAnIdentifier (value : Value)
  | noVariantFits (type : String)

def ticked (s : String) : String :=
  "`" ++ s ++ "`"

def alternatives : List String → String
  | [] => "there are no variants"
  | [a] => "expected " ++ ticked a
  | [a, b] => "expected " ++ ticked a ++ " or " ++ ticked b
  | known => "expected one of " ++ ", ".intercalate (known.map ticked)

def DecodeError.message : DecodeError → String
  | .wrongType found expected => "invalid type: " ++ found.message ++ ", expected " ++ expected
  | .wrongValue found expected => "invalid value: " ++ found.message ++ ", expected " ++ expected
  | .wrongLength count expected => "invalid length " ++ toString count ++ ", expected " ++ expected
  | .missingField name => "missing field " ++ ticked name
  | .repeatedField name => "duplicate field " ++ ticked name
  | .unknownVariant name known => "unknown variant " ++ ticked name ++ ", " ++ alternatives known
  | .notAnIdentifier value => "expected a string or number identifier, got " ++ value.compact
  | .noVariantFits type => "data did not match any variant of untagged enum " ++ type

/-- Where a value comes from: a document itself, or the rest of an element whose tag was taken off.
The two word a surplus of items differently, and only the second takes an empty object for no
content. -/
inductive Origin
  | document
  | element
deriving DecidableEq

abbrev Decoder (α : Type) := Origin → Value → Except DecodeError α

namespace Decoder

def text : Decoder String
  | _, .text s => .ok s
  | _, v => .error (.wrongType v.found "a string")

def boolean : Decoder Bool
  | _, .boolean b => .ok b
  | _, v => .error (.wrongType v.found "a boolean")

def integerIn (low high : Int) (expected : String) : Decoder Int
  | _, .number (.integer i) =>
    if low ≤ i ∧ i < high then .ok i else .error (.wrongValue (.number (.integer i)) expected)
  | _, v => .error (.wrongType v.found expected)

def count : Decoder Nat
  | _, .number (.integer i) =>
    if 0 ≤ i then .ok i.toNat else .error (.wrongValue (.number (.integer i)) "usize")
  | _, v => .error (.wrongType v.found "usize")

def list {α : Type} (item : Decoder α) : Decoder (List α)
  | o, .list items => items.mapM (item o)
  | _, v => .error (.wrongType v.found "a sequence")

def optional {α : Type} (item : Decoder α) : Decoder (Option α)
  | _, .null => .ok none
  | o, v => (item o v).map some

def orElse {α : Type} (default : α) (item : Decoder α) : Decoder α
  | _, .null => .ok default
  | o, v => item o v

/-- An identifier: a string, the text of a number, or null for the empty one. -/
def identifier : Decoder String
  | _, .null => .ok ""
  | _, .text s => .ok s
  | _, .number n => .ok n.toText
  | _, v => .error (.notAnIdentifier v)

end Decoder

inductive Payload (α : Type)
  | bare (value : α)
  | holding (decode : Decoder α)

def noContent (o : Origin) (v : Value) : Except DecodeError Unit :=
  match o, v with
  | _, .null => .ok ()
  | .element, .object [] => .ok ()
  | _, v => .error (.wrongType v.found "unit")

def findVariant {α : Type} (known : List (String × α)) (name : String) :
    Except DecodeError α :=
  match known.lookup name with
  | some a => .ok a
  | none => .error (.unknownVariant name (known.map (·.1)))

def Decoder.variant {α : Type} (known : List (String × Payload α)) : Decoder α
  | _, .text name => do
    match ← findVariant known name with
    | .bare a => .ok a
    | .holding _ => .error (.wrongType .bareVariant "newtype variant")
  | o, .object [(name, content)] => do
    match ← findVariant known name with
    | .bare a => do noContent o content; .ok a
    | .holding decode => decode o content
  | _, .object _ => .error (.wrongValue .object "map with a single key")
  | _, v => .error (.wrongType v.found "string or map")

def Decoder.choice {α : Type} (known : List (String × α)) : Decoder α :=
  variant (known.map fun (name, a) => (name, .bare a))

/-- What it means for a field to be left out. A list of items may leave out only the fields with a
default. -/
inductive Absence
  | refused
  | none
  | default
deriving DecidableEq

structure Field where
  name : String
  others : List String
  absence : Absence
  check : Origin → Value → Except DecodeError Unit

abbrev Slots := List (String × Value)

namespace Field

def accepts {α : Type} (decode : Decoder α) (o : Origin) (v : Value) :
    Except DecodeError Unit :=
  (decode o v).map fun _ => ()

def required {α : Type} (name : String) (decode : Decoder α) : Field :=
  ⟨name, [], .refused, accepts decode⟩

def nullable {α : Type} (name : String) (decode : Decoder α) : Field :=
  ⟨name, [], .none, accepts (Decoder.optional decode)⟩

def defaulted {α : Type} (name : String) (others : List String) (decode : Decoder α) : Field :=
  ⟨name, others, .default, accepts decode⟩

def named (key : String) (f : Field) : Bool :=
  f.name == key || f.others.contains key

end Field

namespace Slots

def ofFields (fields : List Field) (o : Origin) (seen : Slots) :
    List (String × Value) → Except DecodeError Slots
  | [] => .ok seen
  | (key, v) :: rest =>
    match fields.find? (Field.named key) with
    | none => ofFields fields o seen rest
    | some f =>
      if seen.any (·.1 == f.name) then .error (.repeatedField f.name)
      else do
        f.check o v
        ofFields fields o (seen ++ [(f.name, v)]) rest

def plural (n : Nat) : String :=
  toString n ++ if n == 1 then " element" else " elements"

def surplus (o : Origin) (given expected : Nat) : DecodeError :=
  .wrongLength given
    (if o = .document then "fewer elements in array" else plural expected ++ " in sequence")

def ofItems (title : String) (fields : List Field) (o : Origin) (index : Nat)
    (seen : Slots) : List Field → List Value → Except DecodeError Slots
  | [], [] => .ok seen
  | [], rest => .error (surplus o (index + rest.length) index)
  | f :: fs, [] =>
    if f.absence = .default then ofItems title fields o (index + 1) seen fs []
    else .error (.wrongLength index (title ++ " with " ++ plural fields.length))
  | f :: fs, v :: vs => do
    f.check o v
    ofItems title fields o (index + 1) (seen ++ [(f.name, v)]) fs vs

def ofValue (title : String) (fields : List Field) : Decoder Slots
  | o, .object given => do
    let slots ← ofFields fields o [] given
    match fields.find? (fun f => f.absence = .refused && !slots.any (·.1 == f.name)) with
    | some f => .error (.missingField f.name)
    | none => .ok slots
  | o, .list items => ofItems title fields o 0 [] fields items
  | _, v => .error (.wrongType v.found title)

def required {α : Type} (slots : Slots) (name : String) (o : Origin) (decode : Decoder α) :
    Except DecodeError α :=
  match slots.lookup name with
  | some v => decode o v
  | none => .error (.missingField name)

def nullable {α : Type} (slots : Slots) (name : String) (o : Origin) (decode : Decoder α) :
    Except DecodeError (Option α) :=
  match slots.lookup name with
  | some v => Decoder.optional decode o v
  | none => .ok none

def defaulted {α : Type} (slots : Slots) (name : String) (o : Origin) (decode : Decoder α)
    (default : α) : Except DecodeError α :=
  match slots.lookup name with
  | some v => decode o v
  | none => .ok default

end Slots

/-- Splits the tag off a tagged value: the field of that name, or the first item. -/
def splitTag {τ : Type} (tag title : String) (readTag : Value → Except DecodeError τ) :
    Value → Except DecodeError (τ × Value)
  | .object fields =>
    match fields.lookup tag with
    | none => .error (.missingField tag)
    | some t => do return (← readTag t, .object (fields.filter (·.1 != tag)))
  | .list [] => .error (.missingField tag)
  | .list (t :: rest) => do return (← readTag t, .list rest)
  | v => .error (.wrongType v.found title)

def tagName : Value → Except DecodeError String
  | .text s => .ok s
  | v => .error (.wrongType v.found "variant identifier")

end SchemaSynth.Json
