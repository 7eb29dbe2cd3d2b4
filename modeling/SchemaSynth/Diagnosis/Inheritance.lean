import SchemaSynth.Diagram.Basic

/-! Cycles of inheritance. The generalizations of a diagram are taken one after the other; one
closes a cycle if its child leads to its parent through earlier ones. -/
namespace SchemaSynth
namespace Inheritance

/-- Links from parents to children, the latest first. -/
abbrev Links := List (String × String)

def childrenOf (links : Links) (id : String) : List String :=
  (links.filter (·.1 == id)).map (·.2)

def fresh (seen : List String) : List String → List String
  | [] => []
  | id :: ids => if seen.contains id then fresh seen ids else id :: fresh (id :: seen) ids

/-- Breadth-first search. The paths in the queue are written backwards, the class reached first. -/
def search (links : Links) (goal : String) :
    Nat → List (List String) → List String → Option (List String)
  | 0, _, _ => none
  | _ + 1, [], _ => none
  | fuel + 1, [] :: queue, seen => search links goal fuel queue seen
  | fuel + 1, (id :: path) :: queue, seen =>
    if id = goal then some (id :: path).reverse
    else
      let found := fresh seen (childrenOf links id)
      search links goal fuel (queue ++ found.map (· :: id :: path)) (found.reverse ++ seen)

/-- A shortest path from one class to another. Each class enters the queue once, and there are no
more classes than ends of links, and the start. -/
def path? (links : Links) (start goal : String) : Option (List String) :=
  search links goal (2 * links.length + 2) [[start]] [start]

end Inheritance

/-- A generalization that closes a cycle, by its position, and a path from its child to its parent.
-/
structure InheritanceCycle where
  edge : Nat
  path : List String
deriving DecidableEq

namespace Diagram

def isInheritance (e : RelationshipEdge) : Bool :=
  e.kind = .generalization && !e.isSelfReference

def cyclesFrom (links : Inheritance.Links) :
    List (RelationshipEdge × Nat) → List InheritanceCycle
  | [] => []
  | (e, index) :: rest =>
    if isInheritance e then
      let later := cyclesFrom ((e.source, e.target) :: links) rest
      match Inheritance.path? links e.target e.source with
      | some path => ⟨index, path⟩ :: later
      | none => later
    else cyclesFrom links rest

/-- The generalizations that close a cycle, in order. One that does is a link for those after it all
the same. -/
def inheritanceCycles (d : Diagram) : List InheritanceCycle :=
  cyclesFrom [] d.relationships.zipIdx

end Diagram
end SchemaSynth
