import SchemaSynth.Synthesis.Codec
import SchemaSynth.Toml.Reader

/-! Settings for the generation, from a TOML text and from variables that override it. -/
namespace SchemaSynth

structure Settings where
  generator : Options
deriving DecidableEq

namespace Settings
open Toml

def standard : Settings := ⟨.standard⟩

def policyOfName? (name : String) : Option CollisionPolicy :=
  if name = "warn" then some .warn else if name = "suffix" then some .suffix else none

def isEmptyValue : Value → Bool
  | .list items => items.isEmpty
  | .table _ fields => fields.isEmpty
  | _ => false

def policy? : Value → Option CollisionPolicy
  | .text name => policyOfName? name
  | .table _ [(name, content)] => if isEmptyValue content then policyOfName? name else none
  | _ => none

def banner? : Value → Option Bool
  | .boolean b => some b
  | _ => none

def orStandard {α : Type} (standard : α) (read? : Value → Option α) : Option Value → Option α
  | none => some standard
  | some v => read? v

def options (policy banner : Option Value) : Option Options := do
  return ⟨← orStandard Options.standard.collisionPolicy policy? policy,
    ← orStandard Options.standard.includeBanner banner? banner⟩

/-- Options come from a table by name or from a list in order. A moment holds none. -/
def options? : Value → Option Options
  | .table _ fields => options (fields.lookup "collision_policy") (fields.lookup "include_banner")
  | .moment => some .standard
  | .list items => options items[0]? items[1]?
  | .tables items => options items[0]? items[1]?
  | _ => none

/-- The settings of a text, or `none` if it is no TOML or sets something to what it cannot be.
Whatever else it says is passed over. -/
def parse? (text : String) : Option Settings := do
  let fields ← Toml.read? text
  return ⟨← orStandard .standard options? (fields.lookup "generator")⟩

def fileName : String := ".uml-schema.toml"

def unreadable : String := "Failed to parse config"

def policyVariable : String := "UML_SCHEMA_COLLISION_POLICY"

def bannerVariable : String := "UML_SCHEMA_BANNER"

def truthOf? (s : String) : Option Bool :=
  let word := Text.trimmed s
  if word = "true" then some true else if word = "false" then some false else none

/-- The settings with the texts of the two variables over them, as far as those have a meaning. -/
def override (policy banner : Option String) (s : Settings) : Settings :=
  ⟨⟨(policy >>= CollisionPolicy.parse?).getD s.generator.collisionPolicy,
    (banner >>= truthOf?).getD s.generator.includeBanner⟩⟩

def encode (s : Settings) : Json.Value :=
  .object [("generator", s.generator.encode)]

end Settings
end SchemaSynth
