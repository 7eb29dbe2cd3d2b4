import SchemaSynth.Synthesis.Strategy

/-! The run over the relationships of a diagram: each edge is used up once, in order. -/
namespace SchemaSynth

/-- A rule as it was applied: the edges it used up, by position, and its statements. -/
structure RuleApplication where
  rule : Rule
  edges : List Nat
  statements : List Statement
deriving DecidableEq

abbrev PartKeys := List (String × List String)

namespace PartKeys

def keyOf (keys : PartKeys) (part : String) : List String :=
  (keys.lookup part).getD ["id"]

def extended (keys : PartKeys) (whole part : String) : List String :=
  let key := keys.keyOf part
  let column := Strategy.referenceColumn whole
  if key.contains column then key else key ++ [column]

end PartKeys

namespace Strategy

def partKey (keys : PartKeys) : Strategy → List String
  | .composition whole part => keys.extended whole part
  | _ => []

def keysAfter (keys : PartKeys) : Strategy → PartKeys
  | .composition whole part => (part, keys.extended whole part) :: keys
  | _ => keys

def apply (keys : PartKeys) (e : RelationshipEdge) (index : Nat) (s : Strategy) : RuleApplication :=
  ⟨s.rule, s.edges index, s.statements e (s.partKey keys)⟩

end Strategy

/-- What a run carries from edge to edge: the positions used up so far, and the keys of parts. -/
structure Progress where
  used : List Nat
  keys : PartKeys

namespace Progress

def start : Progress := ⟨[], []⟩

def after (p : Progress) (index : Nat) (s : Strategy) : Progress :=
  ⟨s.edges index ++ p.used, s.keysAfter p.keys⟩

end Progress

namespace Diagram

/-- The applications for the edges from a position on. An edge that is used up is passed over. -/
def applyFrom (names : TableNames) (classification : Classification) (p : Progress) :
    List (RelationshipEdge × Nat) → List RuleApplication
  | [] => []
  | (e, index) :: rest =>
    if p.used.contains index then applyFrom names classification p rest
    else
      let s := Strategy.choose names classification e index
      s.apply p.keys e index :: applyFrom names classification (p.after index s) rest

/-- The applications for all edges, in order. A recursive pair is used up with its first edge. -/
def applications (d : Diagram) (names : TableNames) (classification : Classification) :
    List RuleApplication :=
  applyFrom names classification .start d.relationships.zipIdx

end Diagram
end SchemaSynth
