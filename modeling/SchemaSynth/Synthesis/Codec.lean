import SchemaSynth.Schema.Codec
import SchemaSynth.Synthesis.Generation

/-! JSON forms of rules, options and results of a generation. -/
namespace SchemaSynth
open Json

namespace CollisionPolicy

def encode : CollisionPolicy → Value
  | .warn => .text "warn"
  | .suffix => .text "suffix"

def decode : Decoder CollisionPolicy := .choice [("warn", .warn), ("suffix", .suffix)]

end CollisionPolicy

namespace Options

def fields : List Field :=
  [.defaulted "collision_policy" [] CollisionPolicy.decode, .defaulted "include_banner" [] .boolean]

def encode (s : Options) : Value :=
  .object [("collision_policy", s.collisionPolicy.encode),
    ("include_banner", .boolean s.includeBanner)]

def decode : Decoder Options := fun o v => do
  let slots ← Slots.ofValue "struct GeneratorOptions" fields o v
  return {
    collisionPolicy := ←
      slots.defaulted "collision_policy" o CollisionPolicy.decode standard.collisionPolicy
    includeBanner := ← slots.defaulted "include_banner" o .boolean standard.includeBanner }

end Options

def RecursivePair.encode (p : RecursivePair) : Value :=
  .object [("edges", .list [.ofNat p.first, .ofNat p.second]), ("source", .text p.source),
    ("target", .text p.target)]

namespace Rule

def key : Rule → String
  | .missingEndpoint => "missingEndpoint"
  | .selfReference => "selfReference"
  | .recursiveManyToMany => "recursiveManyToMany"
  | .composition => "composition"
  | .generalization => "generalization"
  | .aggregation => "aggregation"
  | .manyToMany => "manyToMany"
  | .oneToMany => "oneToMany"
  | .fallback => "fallback"

def known : List (String × Rule) :=
  [.missingEndpoint, .selfReference, .recursiveManyToMany, .composition, .generalization,
    .aggregation, .manyToMany, .oneToMany, .fallback].map fun r => (r.key, r)

def encode (r : Rule) : Value := .text r.key

def decode : Decoder Rule := .choice known

end Rule

namespace RuleApplication

def fields : List Field :=
  [.required "rule" Rule.decode, .required "edges" (.list .count),
    .required "statements" (.list Statement.decode)]

def encode (a : RuleApplication) : Value :=
  .object [("edges", .list (a.edges.map .ofNat)), ("rule", a.rule.encode),
    ("statements", .list (a.statements.map (·.encode)))]

def decode : Decoder RuleApplication := fun o v => do
  let slots ← Slots.ofValue "struct RuleApplication" fields o v
  return {
    rule := ← slots.required "rule" o Rule.decode
    edges := ← slots.required "edges" o (.list .count)
    statements := ← slots.required "statements" o (.list Statement.decode) }

end RuleApplication

namespace Statistics

def fields : List Field :=
  [.required "classCount" .count, .required "relationshipCount" .count,
    .required "tableCount" .count]

def encode (s : Statistics) : Value :=
  .object [("classCount", .ofNat s.classCount),
    ("relationshipCount", .ofNat s.relationshipCount), ("tableCount", .ofNat s.tableCount)]

def decode : Decoder Statistics := fun o v => do
  let slots ← Slots.ofValue "struct GenerationStatistics" fields o v
  return {
    classCount := ← slots.required "classCount" o .count
    relationshipCount := ← slots.required "relationshipCount" o .count
    tableCount := ← slots.required "tableCount" o .count }

end Statistics

namespace Generation

def fields : List Field :=
  [.required "sql" .text, .required "statistics" Statistics.decode,
    .required "appliedRules" (.list RuleApplication.decode), .required "warnings" (.list .text)]

def encode (g : Generation) : Value :=
  .object [("appliedRules", .list (g.appliedRules.map (·.encode))), ("sql", .text g.sql),
    ("statistics", g.statistics.encode), ("warnings", .texts g.warnings)]

def decode : Decoder Generation := fun o v => do
  let slots ← Slots.ofValue "struct GenerationResult" fields o v
  return {
    sql := ← slots.required "sql" o .text
    statistics := ← slots.required "statistics" o Statistics.decode
    appliedRules := ← slots.required "appliedRules" o (.list RuleApplication.decode)
    warnings := ← slots.required "warnings" o (.list .text) }

end Generation
end SchemaSynth
