import SchemaSynth.Diagram.Codec
import SchemaSynth.Files.FileSystem
import SchemaSynth.Json.Reader
import SchemaSynth.Yaml.Meaning

/-! Reading a diagram from a document of boards. A board that is no list spoils the document; an
element that makes no sense is skipped and warned of. -/
namespace SchemaSynth
open Json

inductive ShapeFault
  | boardsMissing
  | boardsNotListed (kind : String)
  | documentNotListed (kind : String)
  | boardNotListed (board : Nat) (kind : String)
  | requestNotListed
deriving DecidableEq

def boardsKey : String := "elementsByBoard"

def boardsKeys : List String := [boardsKey, "elementosPorPizarra"]

def ShapeFault.message : ShapeFault → String
  | .boardsMissing => "expected a list of boards or an object with '" ++ boardsKey ++ "'"
  | .boardsNotListed kind => "'" ++ boardsKey ++ "' must be a list of boards, got " ++ kind
  | .documentNotListed kind => "expected a list of boards, got " ++ kind
  | .boardNotListed board kind =>
    "board " ++ toString board ++ " must be a list of elements, got " ++ kind
  | .requestNotListed => boardsKey ++ " must be a list of boards"

inductive ImportError
  | badJson (fault : TextError)
  | badYaml
  | badShape (fault : ShapeFault)
  | badFile (name : String) (fault : FileFault)

def ImportError.message : ImportError → String
  | .badJson fault => "Parse error: Invalid JSON: " ++ fault.message
  | .badYaml => "Parse error: Invalid YAML"
  | .badShape fault => "Invalid input shape: " ++ fault.message
  | .badFile name fault => "IO error: " ++ name ++ ": " ++ fault.message

inductive ElementFault
  | notAnObject (kind : String)
  | untagged
  | undecodable (cause : DecodeError)

def ElementFault.message : ElementFault → String
  | .notAnObject kind => "expected an object, got " ++ kind
  | .untagged => "element has no 'type' tag"
  | .undecodable cause => cause.message

structure ImportWarning where
  board : Nat
  element : Nat
  fault : ElementFault

def ImportWarning.message (w : ImportWarning) : String :=
  "board " ++ toString w.board ++ " element " ++ toString w.element ++ ": " ++ w.fault.message

/-- An imported diagram, the number of its boards, and the elements left out. -/
structure Import where
  diagram : Diagram
  boardCount : Nat
  warnings : List ImportWarning

namespace Import

/-- The fields of an element with its tag under `type`. The tag may stand under `tipo` instead. -/
def tagged (fields : List (String × Value)) : Except ElementFault (List (String × Value)) :=
  if (fields.lookup "type").isSome then .ok fields
  else match fields.lookup "tipo" with
    | some tag => .ok (putField "type" tag (fields.filter (·.1 != "tipo")))
    | none => .error .untagged

def element : Value → Except ElementFault DiagramElement
  | .object fields => do
    (DiagramElement.decode .document (.object (← tagged fields))).mapError .undecodable
  | v => .error (.notAnObject v.kind)

def boards : Value → Except ShapeFault (List Value)
  | .list items => .ok items
  | .object fields =>
    match boardsKeys.findSome? fun key => fields.lookup key with
    | some (.list items) => .ok items
    | some v => .error (.boardsNotListed v.kind)
    | none => .error .boardsMissing
  | v => .error (.documentNotListed v.kind)

def elements (index : Nat) : Value → Except ShapeFault (List Value)
  | .list items => .ok items
  | v => .error (.boardNotListed index v.kind)

/-- The elements of all boards; the first board that is no list is the fault reported. -/
def elementsFrom (index : Nat) : List Value → Except ShapeFault (List (List Value))
  | [] => .ok []
  | board :: rest => do return (← elements index board) :: (← elementsFrom (index + 1) rest)

structure Outcome where
  board : Nat
  index : Nat
  result : Except ElementFault DiagramElement

namespace Outcome

def element? (o : Outcome) : Option DiagramElement :=
  o.result.toOption

def warning? (o : Outcome) : Option ImportWarning :=
  match o.result with
  | .ok _ => none
  | .error fault => some ⟨o.board, o.index, fault⟩

end Outcome

def outcomes (boards : List (List Value)) : List Outcome :=
  boards.zipIdx.flatMap fun (items, board) =>
    items.zipIdx.map fun (v, index) => ⟨board, index, element v⟩

def ofElements (boards : List (List Value)) : Import :=
  let all := outcomes boards
  ⟨.ofElements (all.filterMap (·.element?)), boards.length, all.filterMap (·.warning?)⟩

def ofValue (document : Value) : Except ImportError Import :=
  ((boards document >>= elementsFrom 0).map ofElements).mapError .badShape

def ofJson (text : String) : Except ImportError Import := do
  ofValue (← (read text).mapError .badJson)

def ofYaml (text : String) : Except ImportError Import :=
  match Yaml.read? text with
  | some document => ofValue document
  | none => .error .badYaml

/-- Whether a file of this name holds YAML. Any other holds JSON. -/
def isYamlName (name : String) : Bool :=
  match Path.extension? name with
  | some ending => ending = "yaml" || ending = "yml"
  | none => false

def ofNamed (name text : String) : Except ImportError Import :=
  if isYamlName name then ofYaml text else ofJson text

def ofFile (name : String) (content : Except FileFault String) : Except ImportError Import := do
  ofNamed name (← content.mapError (.badFile name))

end Import

def ImportWarning.encode (w : ImportWarning) : Value :=
  .object [("board_index", .ofNat w.board), ("element_index", .ofNat w.element),
    ("message", .text w.fault.message)]

def Import.encode (i : Import) : Value :=
  .object [("board_count", .ofNat i.boardCount), ("diagram", i.diagram.encode),
    ("warnings", .list (i.warnings.map (·.encode)))]

end SchemaSynth
