import SchemaSynth.Diagram.Basic
import SchemaSynth.Json.Decode

/-! JSON forms of diagrams and of their elements. -/
namespace SchemaSynth
open Json

namespace RelationshipKind

def known : List (String × RelationshipKind) :=
  [.association, .composition, .aggregation, .generalization].map fun k => (k.name, k)

def encode (k : RelationshipKind) : Value := .text k.name

def decode : Decoder RelationshipKind := .choice known

end RelationshipKind

namespace Multiplicity

def encode : Multiplicity → Value
  | .one => .text "one"
  | .many => .text "many"
  | .unspecified => .text "unspecified"
  | .other token => .object [("other", .text token)]

def decode : Decoder Multiplicity :=
  .variant [("one", .bare .one), ("many", .bare .many), ("unspecified", .bare .unspecified),
    ("other", .holding fun o v => (Decoder.text o v).map .other)]

end Multiplicity

namespace ClassNode

/-- The name of a class; null is no name. -/
def nameText : Decoder String := .orElse "" .text

/-- Attributes or methods; null is none. -/
def members : Decoder (List String) := .orElse [] (.list .text)

def fields : List Field :=
  [.defaulted "id" [] .identifier, .defaulted "name" [] nameText, .defaulted "attributes" [] members,
    .defaulted "methods" [] members]

def encode (c : ClassNode) : Value :=
  .object [("attributes", .texts c.attributes), ("id", .text c.id), ("methods", .texts c.methods),
    ("name", .text c.name)]

def decode : Decoder ClassNode := fun o v => do
  let slots ← Slots.ofValue "struct ClassNode" fields o v
  return {
    id := ← slots.defaulted "id" o .identifier ""
    name := ← slots.defaulted "name" o nameText ""
    attributes := ← slots.defaulted "attributes" o members []
    methods := ← slots.defaulted "methods" o members [] }

end ClassNode

namespace EdgeElement

/-- A text; null is the empty one. -/
def token : Decoder String := .orElse "" .text

def fields : List Field :=
  [.defaulted "from" [] .identifier, .defaulted "to" [] .identifier,
    .defaulted "multiplicityFrom" ["multOrigen"] token,
    .defaulted "multiplicityTo" ["multDestino"] token, .defaulted "label" [] token]

def encodeFields (e : EdgeElement) : List (String × Value) :=
  [("from", .text e.source), ("label", .text e.label),
    ("multiplicityFrom", .text e.multiplicityFrom), ("multiplicityTo", .text e.multiplicityTo),
    ("to", .text e.target)]

def decode : Decoder EdgeElement := fun o v => do
  let slots ← Slots.ofValue "struct EdgeElement" fields o v
  return {
    source := ← slots.defaulted "from" o .identifier ""
    target := ← slots.defaulted "to" o .identifier ""
    multiplicityFrom := ← slots.defaulted "multiplicityFrom" o token ""
    multiplicityTo := ← slots.defaulted "multiplicityTo" o token ""
    label := ← slots.defaulted "label" o token "" }

end EdgeElement

namespace DiagramElement

/-- What the rest of an element with a tag is. One of a further type has no items. -/
def decodeTagged (tag : String) (rest : Value) : Except DecodeError DiagramElement :=
  if tag = "Class" then (ClassNode.decode .element rest).map .classNode
  else match RelationshipKind.known.lookup tag with
    | some kind => (EdgeElement.decode .element rest).map (.relationship kind)
    | none =>
      (Slots.ofValue "unit variant DiagramElement::Other" [] .element rest).map fun _ => .other

/-- An element is told by its field `type`; one of a further type is accepted as it is. -/
def decode : Decoder DiagramElement := fun _ v => do
  let (tag, rest) ← splitTag "type" "internally tagged enum DiagramElement" tagName v
  decodeTagged tag rest

def encode : DiagramElement → Value
  | .classNode c =>
    .object [("attributes", .texts c.attributes), ("id", .text c.id), ("methods", .texts c.methods),
      ("name", .text c.name), ("type", .text "Class")]
  | .relationship kind e => .object (e.encodeFields ++ [("type", .text kind.name)])
  | .other => .object [("type", .text "Other")]

end DiagramElement

namespace RelationshipEdge

def fields : List Field :=
  [.required "kind" RelationshipKind.decode, .required "from" .text, .required "to" .text,
    .required "multiplicity_from" Multiplicity.decode,
    .required "multiplicity_to" Multiplicity.decode, .defaulted "label" [] .text]

def encode (e : RelationshipEdge) : Value :=
  .object [("from", .text e.source), ("kind", e.kind.encode), ("label", .text e.label),
    ("multiplicity_from", e.multiplicityFrom.encode),
    ("multiplicity_to", e.multiplicityTo.encode), ("to", .text e.target)]

def decode : Decoder RelationshipEdge := fun o v => do
  let slots ← Slots.ofValue "struct RelationshipEdge" fields o v
  return {
    kind := ← slots.required "kind" o RelationshipKind.decode
    source := ← slots.required "from" o .text
    target := ← slots.required "to" o .text
    multiplicityFrom := ← slots.required "multiplicity_from" o Multiplicity.decode
    multiplicityTo := ← slots.required "multiplicity_to" o Multiplicity.decode
    label := ← slots.defaulted "label" o .text "" }

end RelationshipEdge

namespace Diagram

def fields : List Field :=
  [.required "classes" (.list ClassNode.decode),
    .required "relationships" (.list RelationshipEdge.decode)]

def encode (d : Diagram) : Value :=
  .object [("classes", .list (d.classes.map (·.encode))),
    ("relationships", .list (d.relationships.map (·.encode)))]

def decode : Decoder Diagram := fun o v => do
  let slots ← Slots.ofValue "struct Diagram" fields o v
  return {
    classes := ← slots.required "classes" o (.list ClassNode.decode)
    relationships := ← slots.required "relationships" o (.list RelationshipEdge.decode) }

end Diagram
end SchemaSynth
