import SchemaSynth.Diagram.Basic

/-! Join classes. A class drawn with two `1 → *` edges from the same other class stands for a
recursive many-to-many relationship of that class, and gets no table of its own. -/
namespace SchemaSynth

/-- Two edges from a class to its join class, by their positions. -/
structure RecursivePair where
  source : String
  target : String
  first : Nat
  second : Nat
deriving DecidableEq

structure Classification where
  pairs : List RecursivePair
deriving DecidableEq

namespace Classification

def isIntermediary (c : Classification) (id : String) : Bool :=
  c.pairs.any (·.target == id)

def pairFor? (c : Classification) (index : Nat) : Option RecursivePair :=
  c.pairs.find? fun p => p.first == index || p.second == index

end Classification

namespace Diagram

/-- Whether an edge is `1 → *` between two different classes of the diagram. -/
def qualifies (d : Diagram) (e : RelationshipEdge) : Bool :=
  !e.isSelfReference && e.multiplicityFrom.isOne && e.multiplicityTo.isMany &&
    d.ids.contains e.source && d.ids.contains e.target

def candidates (d : Diagram) : List (RelationshipEdge × Nat) :=
  d.relationships.zipIdx.filter fun (e, _) => d.qualifies e

def links (d : Diagram) (source target : String) : List Nat :=
  (d.candidates.filter fun (e, _) => e.source == source && e.target == target).map (·.2)

/-- The pair that starts with an edge: there are just two links between its ends, and it is the
first. -/
def pairAt? (d : Diagram) (e : RelationshipEdge) (index : Nat) : Option RecursivePair :=
  match d.links e.source e.target with
  | [first, second] => if first = index then some ⟨e.source, e.target, first, second⟩ else none
  | _ => none

/-- Exactly two links make a pair. One is an ordinary edge, and so are three or more. -/
def classify (d : Diagram) : Classification :=
  ⟨d.candidates.filterMap fun (e, index) => d.pairAt? e index⟩

end Diagram
end SchemaSynth
