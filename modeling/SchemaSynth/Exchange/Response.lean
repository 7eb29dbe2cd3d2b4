import SchemaSynth.Exchange.Request
import SchemaSynth.Synthesis.Codec

/-! Responses: a script with its statistics, or what was wrong with the request. -/
namespace SchemaSynth
open Json

structure Delivery where
  success : Bool
  sql : String
  statistics : Statistics
  warnings : List String
deriving DecidableEq

structure Refusal where
  success : Bool
  error : String
deriving DecidableEq

inductive Response
  | generated (delivery : Delivery)
  | failed (refusal : Refusal)
deriving DecidableEq

namespace Delivery

def fields : List Field :=
  [.required "success" .boolean, .required "sql" .text, .required "statistics" Statistics.decode,
    .defaulted "warnings" [] (.list .text)]

def decode : Decoder Delivery := fun o v => do
  let slots ← Slots.ofValue "struct GenerateResponse" fields o v
  return {
    success := ← slots.required "success" o .boolean
    sql := ← slots.required "sql" o .text
    statistics := ← slots.required "statistics" o Statistics.decode
    warnings := ← slots.defaulted "warnings" o (.list .text) [] }

/-- Warnings are left out if there are none. -/
def encode (d : Delivery) : Value :=
  .object ([("success", .boolean d.success), ("sql", .text d.sql),
    ("statistics", d.statistics.encode)]
    ++ if d.warnings.isEmpty then [] else [("warnings", .texts d.warnings)])

def ofGeneration (g : Generation) : Delivery :=
  ⟨true, g.sql, g.statistics, g.warnings⟩

/-- The delivery for an imported diagram. Skipped elements are warned of first. -/
def ofImport (i : Import) (options : Options) (stamp : Moment) : Delivery :=
  let d := ofGeneration (i.diagram.generate options stamp)
  { d with warnings := i.warnings.map (·.message) ++ d.warnings }

end Delivery

namespace Refusal

def fields : List Field :=
  [.required "success" .boolean, .required "error" .text]

def decode : Decoder Refusal := fun o v => do
  let slots ← Slots.ofValue "struct ErrorResponse" fields o v
  return {
    success := ← slots.required "success" o .boolean
    error := ← slots.required "error" o .text }

def encode (r : Refusal) : Value :=
  .object [("success", .boolean r.success), ("error", .text r.error)]

end Refusal

namespace Response

def isSuccess : Response → Bool
  | .generated _ => true
  | .failed _ => false

def encode : Response → Value
  | .generated d => d.encode
  | .failed r => r.encode

/-- A response is told by its fields; a script is looked for first. -/
def decode : Decoder Response := fun _ v =>
  match Delivery.decode .element v with
  | .ok d => .ok (.generated d)
  | .error _ =>
    match Refusal.decode .element v with
    | .ok r => .ok (.failed r)
    | .error _ => .error (.noVariantFits "ApiResponse")

inductive ReadError
  | syntactic (fault : TextError)
  | undecodable (cause : DecodeError)

def ReadError.message : ReadError → String
  | .syntactic fault => fault.message
  | .undecodable cause => cause.message

/-- The response a text writes. What follows the response is looked at last. -/
def read (s : String) : Except ReadError Response := do
  let start := Cursor.ofText s
  let (v, c) ← (readValue .keep (fuelFor start) depthLimit start).mapError .syntactic
  let response ← (decode .document v).mapError .undecodable
  (readEnd c).mapError .syntactic
  return response

def toRequest (body : String) (options : Options) (stamp : Moment) : Response :=
  match Request.read body with
  | .ok i => .generated (.ofImport i options stamp)
  | .error e => .failed ⟨false, e.message⟩

end Response
end SchemaSynth
