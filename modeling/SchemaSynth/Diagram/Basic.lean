import SchemaSynth.Text.Blank

/-! Class diagrams: classes, the relationships drawn between them, and the elements of a board. -/
namespace SchemaSynth

inductive RelationshipKind
  | association
  | composition
  | aggregation
  | generalization
deriving DecidableEq

def RelationshipKind.name : RelationshipKind → String
  | .association => "Association"
  | .composition => "Composition"
  | .aggregation => "Aggregation"
  | .generalization => "Generalization"

/-- How many instances stand at one end of a relationship. What is neither `1`, a text with a star
nor empty is kept as it was written. -/
inductive Multiplicity
  | one
  | many
  | unspecified
  | other (token : String)
deriving DecidableEq

namespace Multiplicity

/-- Blanks at either end of the token do not count. -/
def parse (raw : String) : Multiplicity :=
  let token := Text.trim raw.toList
  if token = [] then .unspecified
  else if token = ['1'] then .one
  else if '*' ∈ token then .many
  else .other (String.ofList token)

def display : Multiplicity → String
  | .one => "1"
  | .many => "*"
  | .unspecified => "?"
  | .other token => token

def isOne (m : Multiplicity) : Bool := m = .one

def isMany (m : Multiplicity) : Bool := m = .many

def isManyOrUnspecified (m : Multiplicity) : Bool := m = .many || m = .unspecified

end Multiplicity

/-- A class: its opaque id, and its name, attributes and methods as they were typed. -/
structure ClassNode where
  id : String
  name : String
  attributes : List String
  methods : List String
deriving DecidableEq

structure EdgeElement where
  source : String
  target : String
  multiplicityFrom : String
  multiplicityTo : String
  label : String
deriving DecidableEq

/-- An element of a board. Notes and free shapes are of no further interest. -/
inductive DiagramElement
  | classNode (node : ClassNode)
  | relationship (kind : RelationshipKind) (edge : EdgeElement)
  | other
deriving DecidableEq

structure RelationshipEdge where
  kind : RelationshipKind
  source : String
  target : String
  multiplicityFrom : Multiplicity
  multiplicityTo : Multiplicity
  label : String
deriving DecidableEq

namespace RelationshipEdge

def bare (kind : RelationshipKind) (source target : String) : RelationshipEdge :=
  ⟨kind, source, target, .unspecified, .unspecified, ""⟩

def withMultiplicities (e : RelationshipEdge) (tokenFrom tokenTo : String) : RelationshipEdge :=
  { e with multiplicityFrom := .parse tokenFrom, multiplicityTo := .parse tokenTo }

def ofElement (kind : RelationshipKind) (e : EdgeElement) : RelationshipEdge :=
  ⟨kind, e.source, e.target, .parse e.multiplicityFrom, .parse e.multiplicityTo, e.label⟩

def isSelfReference (e : RelationshipEdge) : Bool :=
  e.source == e.target

end RelationshipEdge

/-- A diagram: its classes and its relationships, each in the order of the elements. -/
structure Diagram where
  classes : List ClassNode
  relationships : List RelationshipEdge
deriving DecidableEq

namespace Diagram

def classOf : DiagramElement → Option ClassNode
  | .classNode node => some node
  | _ => none

def edgeOf : DiagramElement → Option RelationshipEdge
  | .relationship kind e => some (.ofElement kind e)
  | _ => none

def ofElements (elements : List DiagramElement) : Diagram :=
  ⟨elements.filterMap classOf, elements.filterMap edgeOf⟩

def ofBoards (boards : List (List DiagramElement)) : Diagram :=
  ofElements boards.flatten

def find? (d : Diagram) (id : String) : Option ClassNode :=
  d.classes.find? (·.id == id)

def ids (d : Diagram) : List String :=
  d.classes.map (·.id)

end Diagram
end SchemaSynth
