import SchemaSynth.Yaml.Token

/-! The nodes of a YAML document, from its tokens. -/
namespace SchemaSynth.Yaml

/-- A node with its tag, if it has one. An alias is the number of the anchor it stands for. -/
inductive Node
  | scalar (tag : Option Tag) (plain : Bool) (text : String)
  | sequence (tag : Option Tag) (items : List Node)
  | mapping (tag : Option Tag) (entries : List (Node × Node))
  | alias (anchor : Nat)

def Node.empty : Node := .scalar none true ""

/-- A document: its node, the nodes of its anchors by number, the latest first, and its length in
events. -/
structure Document where
  root : Node
  anchors : List (Nat × Node)
  events : Nat

namespace Document

/-- The state of the reading: the tokens left, the tag handles of the document, the number of every
anchor name, where the anchors of a number start, the latest first, the anchors read, and the events
so far. -/
structure State where
  tokens : List Token
  handles : List (String × Tag)
  names : List (String × Nat)
  starts : List (Nat × Nat)
  anchors : List (Nat × Node)
  events : Nat

abbrev Reading := StateT State Option

private def peek : Reading Token := do
  match (← get).tokens with
  | t :: _ => return t
  | [] => return .streamEnd

private def advance : Reading Unit :=
  modify fun s => { s with tokens := s.tokens.drop 1 }

private def event (n : Nat) : Reading Unit :=
  modify fun s => { s with events := s.events + n }

private def emptyNode : Reading Node := do
  event 1
  return .empty

private def resolveTag (handle : String) (suffix : Tag) : Reading Tag := do
  if handle = "" then return suffix
  match (← get).handles.lookup handle with
  | some start => return start ++ suffix
  | none => failure

/-- A name gets the number of names so far. If it had one before, the next new name gets that number
too. The result is the number and where its anchor starts. -/
private def bindAnchor (name : String) : Reading (Nat × Nat) := do
  let s ← get
  let n := s.names.length
  set { s with
    names := (name, n) :: s.names.filter (·.1 != name), starts := (n, s.events) :: s.starts }
  return (n, s.events)

/-- What may stand before a node: an anchor and a tag, in either order. -/
private def properties : Reading (Option String × Option Tag) := do
  match ← peek with
  | .anchor a => do
    advance
    match ← peek with
    | .tag h t => do advance; return (some a, some (← resolveTag h t))
    | _ => return (some a, none)
  | .tag h t => do
    advance
    let tag ← resolveTag h t
    match ← peek with
    | .anchor a => do advance; return (some a, some tag)
    | _ => return (none, some tag)
  | _ => return (none, none)

/-- Keeps the node of an anchor, unless an anchor inside of it has taken over its number. -/
private def setAnchor (anchor : Option (Nat × Nat)) (node : Node) : Reading Node := do
  match anchor with
  | some (n, start) =>
    modify fun s =>
      if s.starts.lookup n = some start then { s with anchors := (n, node) :: s.anchors } else s
  | none => pure ()
  return node

mutual

/-- A node. Outside of brackets it may be a block, and behind a key also a sequence that is not
indented further. -/
private def node : Nat → Bool → Bool → Reading Node
  | 0, _, _ => failure
  | fuel + 1, inBlock, afterKey => do
    match ← peek with
    | .alias name => do
      advance
      event 1
      match (← get).names.lookup name with
      | some n => return .alias n
      | none => failure
    | _ => do
      let (anchor, tag) ← properties
      let n ← anchor.mapM bindAnchor
      let content ← match ← peek with
        | .entry =>
          if afterKey then do event 2; return ← setAnchor n (.sequence tag (← entries fuel false []))
          else bare anchor tag
        | .scalar text plain => do
          advance
          event 1
          pure (.scalar tag plain text)
        | .flowSequence => do
          advance; event 2; pure (.sequence tag (← flowItems fuel true []))
        | .flowMapping => do
          advance; event 2; pure (.mapping tag (← flowEntries fuel true []))
        | .blockSequence =>
          if inBlock then do advance; event 2; pure (.sequence tag (← entries fuel true []))
          else bare anchor tag
        | .blockMapping =>
          if inBlock then do advance; event 2; pure (.mapping tag (← blockEntries fuel []))
          else bare anchor tag
        | _ => bare anchor tag
      setAnchor n content

private def bare (anchor : Option String) (tag : Option Tag) : Reading Node := do
  if anchor.isNone && tag.isNone then failure
  event 1
  return .scalar tag true ""

private def entries : Nat → Bool → List Node → Reading (List Node)
  | 0, _, _ => failure
  | fuel + 1, own, done => do
    match ← peek with
    | .entry => do
      advance
      let item ← match ← peek with
        | .entry | .blockEnd => emptyNode
        | .key | .value => if own then node fuel true false else emptyNode
        | _ => node fuel true false
      entries fuel own (item :: done)
    | .blockEnd => do
      if own then advance
      return done.reverse
    | _ => if own then failure else return done.reverse

private def blockEntries : Nat → List (Node × Node) → Reading (List (Node × Node))
  | 0, _ => failure
  | fuel + 1, done => do
    match ← peek with
    | .key => do
      advance
      let key ← blockPart fuel
      match ← peek with
      | .value => do
        advance
        let value ← blockPart fuel
        blockEntries fuel ((key, value) :: done)
      | _ => do blockEntries fuel ((key, ← emptyNode) :: done)
    | .blockEnd => do
      advance
      return done.reverse
    | _ => failure

private def blockPart : Nat → Reading Node
  | 0 => failure
  | fuel + 1 => do
    match ← peek with
    | .key | .value | .blockEnd => emptyNode
    | _ => node fuel true true

/-- The items of a flow sequence, with its end. A key stands for a mapping of one entry. -/
private def flowItems : Nat → Bool → List Node → Reading (List Node)
  | 0, _, _ => failure
  | fuel + 1, first, done => do
    if (← peek) = .flowSequenceEnd then do advance; return done.reverse
    if !first then
      if (← peek) = .comma then advance else failure
    match ← peek with
    | .flowSequenceEnd => do advance; return done.reverse
    | .key => do
      advance
      event 2
      let key ← match ← peek with
        | .value | .comma | .flowSequenceEnd => do advance; emptyNode
        | _ => node fuel false false
      let value ← flowValue fuel .flowSequenceEnd
      flowItems fuel false (.mapping none [(key, value)] :: done)
    | _ => do flowItems fuel false ((← node fuel false false) :: done)

private def flowValue : Nat → Token → Reading Node
  | 0, _ => failure
  | fuel + 1, closing => do
    if (← peek) = .value then
      advance
      let t ← peek
      if t = .comma || t = closing then emptyNode else node fuel false false
    else emptyNode

/-- The entries of a flow mapping, with its end. A node without a colon is a key without a value. -/
private def flowEntries : Nat → Bool → List (Node × Node) → Reading (List (Node × Node))
  | 0, _, _ => failure
  | fuel + 1, first, done => do
    if (← peek) = .flowMappingEnd then do advance; return done.reverse
    if !first then
      if (← peek) = .comma then advance else failure
    match ← peek with
    | .flowMappingEnd => do advance; return done.reverse
    | .key => do
      advance
      let key ← match ← peek with
        | .value | .comma | .flowMappingEnd => emptyNode
        | _ => node fuel false false
      let value ← flowValue fuel .flowMappingEnd
      flowEntries fuel false ((key, value) :: done)
    | _ => do
      let key ← node fuel false false
      flowEntries fuel false ((key, ← emptyNode) :: done)

end

private def defaultHandles : List (String × Tag) :=
  [("!", Tag.ofText "!"), ("!!", Tag.core "")]

/-- The directives in front of a document. The version may be given once, and each handle. -/
private def directives : Nat → Bool → List (String × Tag) → Reading Unit
  | 0, _, _ => failure
  | fuel + 1, versioned, own => do
    match ← peek with
    | .versionDirective major minor => do
      if versioned || major != 1 || !(minor == 1 || minor == 2) then failure
      advance
      directives fuel true own
    | .tagDirective handle start => do
      if (own.lookup handle).isSome then failure
      advance
      directives fuel versioned ((handle, start) :: own)
    | .documentStart => do
      advance
      modify fun s => { s with handles := own ++ defaultHandles }
    | _ => failure

private def rootNode (fuel : Nat) : Reading Node := do
  match ← peek with
  | .versionDirective .. | .tagDirective .. | .documentStart | .documentEnd | .streamEnd => emptyNode
  | _ => node fuel true false

private def skipDocumentEnds : Nat → Reading Unit
  | 0 => pure ()
  | fuel + 1 => do
    if (← peek) = .documentEnd then
      advance
      skipDocumentEnds fuel

/-- The only document of a text. A text without one stands for an empty node. -/
private def only (fuel : Nat) : Reading Node := do
  match ← peek with
  | .streamEnd => emptyNode
  | t => do
    let explicit := match t with
      | .versionDirective .. | .tagDirective .. | .documentStart => true
      | _ => false
    let content ← if explicit then do directives fuel false []; rootNode fuel
      else do
        modify fun s => { s with handles := defaultHandles }
        node fuel true false
    skipDocumentEnds fuel
    if (← peek) = .streamEnd then return content else failure

def ofTokens? (tokens : List Token) : Option Document := do
  let (root, s) ← (only (3 * tokens.length + 3)).run ⟨tokens, [], [], [], [], 0⟩
  return ⟨root, s.anchors, s.events⟩

end Document
end SchemaSynth.Yaml
