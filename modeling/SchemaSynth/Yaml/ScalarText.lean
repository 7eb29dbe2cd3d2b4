import SchemaSynth.Yaml.Source

/-! The text of scalars: quoted, plain and block scalars with their folded lines. -/
namespace SchemaSynth.Yaml

/-- The gap between two words of a scalar. Within a line it is kept; a line break is folded to a
blank, and further ones are kept in its place. Spaces and further breaks stand the latest first. -/
structure Gap where
  broken : Bool
  spaces : List Char
  first : List Char
  further : List Char

namespace Gap

def none : Gap := ⟨false, [], [], []⟩

def text (g : Gap) : List Char :=
  if g.broken then
    if g.first = ['\n'] then if g.further = [] then [' '] else g.further.reverse
    else g.first ++ g.further.reverse
  else g.spaces.reverse

def addBreak (g : Gap) (b : List Char) : Gap :=
  if g.broken then { g with further := b.reverse ++ g.further } else ⟨true, [], b, []⟩

def addSpace (g : Gap) (c : Char) : Gap :=
  if g.broken then g else { g with spaces := c :: g.spaces }

end Gap

/-- The gap up to the next word. Under an indentation, tabs may not stand in for it. -/
private def readGap (indent : Nat) : Nat → Gap → Source → Option (Gap × Source)
  | 0, _, _ => none
  | fuel + 1, g, s =>
    match s.rest with
    | [] => some (g, s)
    | c :: _ =>
      if isSpace c then
        if g.broken && s.column < indent && c = '\t' then none
        else readGap indent fuel (g.addSpace c) s.skip
      else if isBreak c then readGap indent fuel (g.addBreak s.breakText) s.skipBreak
      else some (g, s)

private def hexDigit (c : Char) : Option Nat :=
  if c.isDigit then some (c.toNat - 48)
  else if 'a' ≤ c && c ≤ 'f' then some (c.toNat - 87)
  else if 'A' ≤ c && c ≤ 'F' then some (c.toNat - 55)
  else none

def hexNumber (cs : List Char) : Option Nat :=
  cs.foldlM (fun n c => (hexDigit c).map (n * 16 + ·)) 0

private def codePoint (digits : Nat) (s : Source) : Option (Char × Source) := do
  let n ← hexNumber (s.rest.take digits)
  if (s.rest.take digits).length < digits || (0xD800 ≤ n && n ≤ 0xDFFF) || 0x10FFFF < n then none
  else some (Char.ofNat n, s.ahead digits)

private def readEscape (s : Source) : Option (Char × Source) :=
  match s.rest with
  | [] => none
  | c :: _ =>
    let is (n : Nat) : Option (Char × Source) := some (Char.ofNat n, s.skip)
    match c with
    | '0' => is 0
    | 'a' => is 7
    | 'b' => is 8
    | 't' => is 9
    | '\t' => is 9
    | 'n' => is 10
    | 'v' => is 11
    | 'f' => is 12
    | 'r' => is 13
    | 'e' => is 27
    | ' ' => is 32
    | '"' => is 34
    | '/' => is 47
    | '\\' => is 92
    | 'N' => is 0x85
    | '_' => is 0xA0
    | 'L' => is 0x2028
    | 'P' => is 0x2029
    | 'x' => codePoint 2 s.skip
    | 'u' => codePoint 4 s.skip
    | 'U' => codePoint 8 s.skip
    | _ => none

/-- The words of a quoted scalar, and the text so far backwards. A doubled single quote stands for
one. -/
private def readQuoted (quote : Char) : Nat → List Char → Source → Option (List Char × Source)
  | 0, _, _ => none
  | fuel + 1, done, s =>
    if s.atAnyDocumentMark then none else
    match s.rest with
    | [] => none
    | c :: _ =>
      if c = quote then
        if quote = '\'' && s.skip.has quote then readQuoted quote fuel (quote :: done) s.skip.skip
        else some (done.reverse, s.skip)
      else if quote = '"' && c = '\\' then
        if s.skip.atBreak then do
          let (g, s) ← readGap 0 (s.size + 1) ⟨true, [], [], []⟩ s.skip.skipBreak
          readQuoted quote fuel (g.text.reverse ++ done) s
        else do
          let (x, s) ← readEscape s.skip
          readQuoted quote fuel (x :: done) s
      else if isSpace c || isBreak c then do
        let (g, s) ← readGap 0 (s.size + 1) .none s
        readQuoted quote fuel (g.text.reverse ++ done) s
      else readQuoted quote fuel (c :: done) s.skip

def quotedScalar (quote : Char) (s : Source) : Option (List Char × Source) :=
  readQuoted quote (s.size + 1) [] s.skip

private def isFlowMark (c : Char) : Bool :=
  c = ',' || c = '[' || c = ']' || c = '\x7b' || c = '\x7d'

private def misplacedColon (inFlow : Bool) (s : Source) : Bool :=
  inFlow && s.has ':' && s.skip.head?.any fun c => isFlowMark c || c = '?'

private def wordEnds (inFlow : Bool) (s : Source) : Bool :=
  s.atGap || (s.has ':' && s.skip.atGap) || (inFlow && s.head?.any isFlowMark)

/-- The words of a plain scalar: the text so far backwards, the gap behind it, and the source behind
the last word. -/
private def readPlain (inFlow : Bool) (indent : Nat) :
    Nat → List Char → Gap → Source → Option (List Char × Gap × Source)
  | 0, _, _, _ => none
  | fuel + 1, done, g, s =>
    if !s.atGap && misplacedColon inFlow s then none
    else if wordEnds inFlow s then
      if s.atSpace || s.atBreak then do
        let (g, s') ← readGap indent (s.size + 1) .none s
        if (!inFlow && s'.column < indent) || s'.atAnyDocumentMark || s'.has '#' || s'.atEnd then
          some (done, g, s')
        else if !misplacedColon inFlow s' && wordEnds inFlow s' then some (done, g, s')
        else readPlain inFlow indent fuel done g s'
      else some (done, g, s)
    else
      match s.rest with
      | [] => some (done, g, s)
      | c :: _ => readPlain inFlow indent fuel (c :: (g.text.reverse ++ done)) .none s.skip

/-- A plain scalar, under an indentation of at least `indent` if it goes on over lines. The flag
tells whether a line was ended behind it. -/
def plainScalar (inFlow : Bool) (indent : Nat) (s : Source) : Option (List Char × Bool × Source) := do
  let (done, g, s) ← readPlain inFlow indent (2 * s.size + 2) [] .none s
  return (done.reverse, g.broken, s)

inductive Chomping
  | strip
  | clip
  | keep
deriving DecidableEq

private def chomping? (s : Source) : Option Chomping :=
  if s.has '+' then some .keep else if s.has '-' then some .strip else none

private def blockHeader (s : Source) : Option (Chomping × Nat × Source) :=
  let digit? (s : Source) : Option Nat :=
    s.head?.bind fun c => if c.isDigit then some (c.toNat - 48) else none
  match chomping? s, digit? s with
  | some chomp, _ =>
    match digit? s.skip with
    | some 0 => none
    | some n => some (chomp, n, s.skip.skip)
    | none => some (chomp, 0, s.skip)
  | none, some 0 => none
  | none, some n =>
    match chomping? s.skip with
    | some chomp => some (chomp, n, s.skip.skip)
    | none => some (.clip, n, s.skip)
  | none, none => some (.clip, 0, s)

/-- Indentation and empty lines in front of a line of a block scalar: the line breaks, the latest
first, and the widest indentation met. An indentation of zero is still to be found out. -/
private def blockBreaks (indent : Nat) :
    Nat → Nat → List Char → Source → Option (List Char × Nat × Source)
  | 0, _, _, _ => none
  | fuel + 1, widest, breaks, s =>
    let spaces := s.rest.takeWhile (· = ' ')
    let wanted := if indent == 0 then spaces.length else min spaces.length (indent - s.column)
    let s := s.ahead wanted
    let widest := max widest s.column
    if (indent == 0 || s.column < indent) && s.has '\t' then none
    else if s.atBreak then blockBreaks indent fuel widest (s.breakText.reverse ++ breaks) s.skipBreak
    else some (breaks, widest, s)

/-- The lines of a block scalar. Held back are the break behind the last line, whether that line was
indented further, and the breaks of the empty lines behind it, the latest first. -/
private def blockLines (folded : Bool) (indent : Nat) :
    Nat → List Char → List Char → Bool → List Char → Source →
      Option (List Char × List Char × List Char × Source)
  | 0, _, _, _, _, _ => none
  | fuel + 1, done, lineBreak, wasDeeper, breaks, s =>
    if s.column != indent || s.atEnd then some (done, lineBreak, breaks, s)
    else do
      let deeper := s.atSpace
      let joint :=
        if folded && lineBreak = ['\n'] && !wasDeeper && !deeper then
          if breaks = [] then [' '] else []
        else lineBreak
      let (line, s) := s.takeWhile fun c => !isBreak c
      let done := line.reverse ++ (breaks ++ (joint.reverse ++ done))
      let lineBreak := s.breakText
      let s := if s.atBreak then s.skipBreak else s
      let (breaks, _, s) ← blockBreaks indent (s.size + 1) 0 [] s
      blockLines folded indent fuel done lineBreak deeper breaks s

/-- A block scalar at its mark, inside of a collection indented by `outer` (or -1). -/
def blockScalar (folded : Bool) (outer : Int) (s : Source) : Option (List Char × Source) := do
  let (chomp, increment, s) ← blockHeader s.skip
  let s := s.skipSpaces.skipComment
  if !s.atLineEnd then none else
  let s := if s.atBreak then s.skipBreak else s
  let given := if increment == 0 then 0 else (max outer 0).toNat + increment
  let (breaks, widest, s) ← blockBreaks given (s.size + 1) 0 [] s
  let indent := if given == 0 then max widest (max (outer + 1) 1).toNat else given
  let (done, lineBreak, breaks, s) ←
    blockLines folded indent (s.size + 1) [] [] false breaks s
  let tail := match chomp with
    | .strip => []
    | .clip => lineBreak
    | .keep => lineBreak ++ breaks.reverse
  return (done.reverse ++ tail, s)

end SchemaSynth.Yaml
