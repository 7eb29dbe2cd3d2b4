import SchemaSynth.Yaml.ScalarText
import SchemaSynth.Yaml.Token

/-! Cutting a YAML text into tokens. A key without a mark of its own is known by the colon behind
it, so the place of every token that may turn out to be a key is kept until its line ends. -/
namespace SchemaSynth.Yaml

/-- A place where a key may have started. A required one has to turn out to be a key. -/
structure KeyCandidate where
  required : Bool
  tokenCount : Nat
  index : Nat
  line : Nat
  column : Nat

/-- The state of the cutting: the source, the tokens so far, the latest first, the open
indentations, the innermost first, and a place for a candidate on each level of brackets. -/
structure Lexer where
  source : Source
  tokens : List Token
  count : Nat
  indent : Int
  indents : List Int
  candidates : List (Option KeyCandidate)
  keyAllowed : Bool

namespace Lexer

def flowLevel (l : Lexer) : Nat :=
  l.candidates.length - 1

def inFlow (l : Lexer) : Bool :=
  l.flowLevel != 0

private def push (l : Lexer) (t : Token) : Lexer :=
  { l with tokens := t :: l.tokens, count := l.count + 1 }

private def insert (l : Lexer) (place : Nat) (t : Token) : Lexer :=
  let behind := l.count - place
  { l with tokens := l.tokens.take behind ++ t :: l.tokens.drop behind, count := l.count + 1 }

private def setCandidate (l : Lexer) (c : Option KeyCandidate) : Lexer :=
  { l with candidates := c :: l.candidates.drop 1 }

private def dropCandidate (l : Lexer) : Option Lexer :=
  match l.candidates.head?.join with
  | some c => if c.required then none else some (l.setCandidate none)
  | none => some l

private def saveCandidate (l : Lexer) : Option Lexer := do
  if !l.keyAllowed then return l
  let s := l.source
  let required := !l.inFlow && l.indent == s.column
  let l ← l.dropCandidate
  return l.setCandidate (some ⟨required, l.count, s.index, s.line, s.column⟩)

private def dropStale (l : Lexer) : Option Lexer := do
  let s := l.source
  let check : Option KeyCandidate → Option (Option KeyCandidate)
    | some c =>
      if c.line < s.line || c.index + 1024 < s.index then
        if c.required then none else some none
      else some (some c)
    | none => some none
  return { l with candidates := ← l.candidates.mapM check }

private def openBlock (l : Lexer) (column place : Nat) (t : Token) : Lexer :=
  if !l.inFlow && l.indent < column then
    { l.insert place t with indent := column, indents := l.indent :: l.indents }
  else l

private def closeBlocks (column : Int) : Nat → Lexer → Lexer
  | 0, l => l
  | fuel + 1, l =>
    if column < l.indent then
      closeBlocks column fuel
        { l.push .blockEnd with indent := l.indents.headD (-1), indents := l.indents.drop 1 }
    else l

private def unroll (l : Lexer) (column : Int) : Lexer :=
  if l.inFlow then l else closeBlocks column l.indents.length l

private def skipToToken : Nat → Lexer → Lexer
  | 0, l => l
  | fuel + 1, l =>
    let tabs := l.inFlow || !l.keyAllowed
    let s := (l.source.skipMark.takeWhile fun c => c = ' ' || (tabs && c = '\t')).2.skipComment
    if s.atBreak then
      skipToToken fuel
        { l with source := s.skipBreak, keyAllowed := if l.inFlow then l.keyAllowed else true }
    else { l with source := s }

private def number (s : Source) : Option (Nat × Source) :=
  let (digits, s) := s.takeWhile Char.isDigit
  if digits.isEmpty || 9 < digits.length then none
  else some (digits.foldl (fun n c => n * 10 + (c.toNat - 48)) 0, s)

private def isUri (brackets : Bool) (c : Char) : Bool :=
  isName c || ";/?:@&=+$.!~*'()%".toList.contains c || (brackets && (c = ',' || c = '[' || c = ']'))

private def numberedByte (s : Source) : Option (UInt8 × Source) :=
  match s.rest with
  | '%' :: a :: b :: _ => (hexNumber [a, b]).map fun n => (UInt8.ofNat n, s.ahead 3)
  | _ => none

private def furtherBytes : Nat → Source → Option (List UInt8 × Source)
  | 0, s => some ([], s)
  | n + 1, s => do
    let (b, s) ← numberedByte s
    if !Tag.isFurther b then none else
    let (bs, s) ← furtherBytes n s
    return (b :: bs, s)

private def numberedBytes (s : Source) : Option (List UInt8 × Source) := do
  let (b, s) ← numberedByte s
  let (bs, s) ← furtherBytes ((← Tag.width? b) - 1) s
  return (b :: bs, s)

private def uriBytes (brackets : Bool) : Nat → List UInt8 → Source → Option (List UInt8 × Source)
  | 0, _, _ => none
  | fuel + 1, done, s =>
    match s.head? with
    | some '%' => do
      let (bytes, s) ← numberedBytes s
      uriBytes brackets fuel (bytes.reverse ++ done) s
    | some c =>
      if isUri brackets c then uriBytes brackets fuel (UInt8.ofNat c.toNat :: done) s.skip
      else some (done.reverse, s)
    | none => some (done.reverse, s)

private def uri (brackets : Bool) (s : Source) : Option (List UInt8 × Source) :=
  uriBytes brackets (s.size + 1) [] s

/-- A tag handle: an exclamation mark, a name, and perhaps another mark. -/
private def handle (s : Source) : List Char × Source :=
  let (name, s) := s.skip.takeWhile isName
  if s.has '!' then (('!' :: name) ++ ['!'], s.skip) else ('!' :: name, s)

/-- A tag: its address between angles, a handle with a suffix, or a suffix behind the mark alone. A
mark with nothing behind it is a tag by itself. -/
private def tagToken (s : Source) : Option (Token × Source) := do
  if s.skip.has '<' then
    let (bytes, s) ← uri true (s.ahead 2)
    if bytes.isEmpty || !s.has '>' then none
    else return (.tag "" (Tag.cut bytes), s.skip)
  else
    let (h, after) := handle s
    let (bytes, s) ← uri false after
    if 1 < h.length && h.getLast? == some '!' then
      if bytes.isEmpty then none
      else return (.tag (String.ofList h) (Tag.cut bytes), s)
    else
      let suffix := Tag.cut (Tag.ofText (String.ofList (h.drop 1)) ++ bytes)
      return (if suffix.isEmpty then .tag "" (Tag.ofText "!") else .tag "!" suffix, s)

private def tagDirective (s : Source) : Option (Token × Source) := do
  let s := s.skipSpaces
  if !s.has '!' then none else
  let (h, s) := handle s
  if 1 < h.length && h.getLast? != some '!' then none else
  if !s.atSpace then none else
  let (start, s) ← uri true s.skipSpaces
  if start.isEmpty || !s.atGap then none
  else some (.tagDirective (String.ofList h) (Tag.cut start), s)

private def versionDirective (s : Source) : Option (Token × Source) := do
  let (major, s) ← number s.skipSpaces
  if !s.has '.' then none else
  let (minor, s) ← number s.skip
  return (.versionDirective major minor, s)

private def directive (s : Source) : Option (Token × Source) := do
  let (name, s) := s.skip.takeWhile isName
  if !s.atGap then none else
  let (token, s) ←
    if name = "YAML".toList then versionDirective s
    else if name = "TAG".toList then tagDirective s
    else none
  let s := s.skipSpaces.skipComment
  if !s.atLineEnd then none
  else some (token, if s.atBreak then s.skipBreak else s)

private def nodeName (s : Source) : Option (String × Source) :=
  let (name, s) := s.skip.takeWhile isName
  if name.isEmpty || !(s.atGap || s.head?.any "?:,]\x7d%@`".toList.contains) then none
  else some (String.ofList name, s)

/-- The end of a text: every block is closed. -/
private def finish (l : Lexer) : Option Lexer := do
  let l := l.unroll (-1)
  let l ← l.dropCandidate
  return l.push .streamEnd

private def documentMark (l : Lexer) (t : Token) : Option Lexer := do
  let l ← (l.unroll (-1)).dropCandidate
  return { l.push t with keyAllowed := false, source := l.source.ahead 3 }

private def openFlow (l : Lexer) (t : Token) : Option Lexer := do
  let l ← l.saveCandidate
  return { l.push t with
    keyAllowed := true, source := l.source.skip, candidates := none :: l.candidates }

private def closeFlow (l : Lexer) (t : Token) : Option Lexer := do
  let l ← l.dropCandidate
  return { l.push t with
    keyAllowed := false
    source := l.source.skip
    candidates := if l.inFlow then l.candidates.drop 1 else l.candidates }

private def comma (l : Lexer) : Option Lexer := do
  let l ← l.dropCandidate
  return { l.push .comma with keyAllowed := true, source := l.source.skip }

private def entry (l : Lexer) : Option Lexer := do
  if !l.inFlow && !l.keyAllowed then none
  let l ← (l.openBlock l.source.column l.count .blockSequence).dropCandidate
  return { l.push .entry with keyAllowed := true, source := l.source.skip }

private def explicitKey (l : Lexer) : Option Lexer := do
  if !l.inFlow && !l.keyAllowed then none
  let l ← (l.openBlock l.source.column l.count .blockMapping).dropCandidate
  return { l.push .key with keyAllowed := !l.inFlow, source := l.source.skip }

private def value (l : Lexer) : Option Lexer :=
  match l.candidates.head?.join with
  | some c =>
    let l := (l.insert c.tokenCount .key).openBlock c.column c.tokenCount .blockMapping
    some { (l.setCandidate none).push .value with keyAllowed := false, source := l.source.skip }
  | none =>
    if !l.inFlow && !l.keyAllowed then none
    else
      let l := l.openBlock l.source.column l.count .blockMapping
      some { l.push .value with keyAllowed := !l.inFlow, source := l.source.skip }

private def word (l : Lexer) (read : Source → Option (Token × Source)) : Option Lexer := do
  let l ← l.saveCandidate
  let (t, s) ← read l.source
  return { l.push t with keyAllowed := false, source := s }

private def plain (l : Lexer) : Option Lexer := do
  let l ← l.saveCandidate
  let (text, broken, s) ← plainScalar l.inFlow (l.indent + 1).toNat l.source
  return { l.push (.scalar (String.ofList text) true) with keyAllowed := broken, source := s }

private def block (l : Lexer) (folded : Bool) : Option Lexer := do
  let l ← l.dropCandidate
  let (text, s) ← blockScalar folded l.indent l.source
  return { l.push (.scalar (String.ofList text) false) with keyAllowed := true, source := s }

private def quotedToken (quote : Char) (s : Source) : Option (Token × Source) := do
  let (text, s) ← quotedScalar quote s
  return (.scalar (String.ofList text) false, s)

private def startsPlain (l : Lexer) (c : Char) : Bool :=
  let s := l.source
  !(s.atGap || "-?:,[]\x7b\x7d#&*!|>'\"%@`".toList.contains c) ||
    (c = '-' && !s.skip.atSpace) ||
    (!l.inFlow && (c = '?' || c = ':') && !s.skip.atGap)

private def token (l : Lexer) (c : Char) : Option Lexer :=
  let s := l.source
  if s.column == 0 && c = '%' then do
    let l ← (l.unroll (-1)).dropCandidate
    let (t, s) ← directive l.source
    return { l.push t with keyAllowed := false, source := s }
  else if s.atDocumentMark '-' then l.documentMark .documentStart
  else if s.atDocumentMark '.' then l.documentMark .documentEnd
  else if c = '[' then l.openFlow .flowSequence
  else if c = '\x7b' then l.openFlow .flowMapping
  else if c = ']' then l.closeFlow .flowSequenceEnd
  else if c = '\x7d' then l.closeFlow .flowMappingEnd
  else if c = ',' then l.comma
  else if c = '-' && s.skip.atGap then l.entry
  else if c = '?' && (l.inFlow || s.skip.atGap) then l.explicitKey
  else if c = ':' && (l.inFlow || s.skip.atGap) then l.value
  else if c = '*' then l.word fun s => (nodeName s).map fun (n, s) => (.alias n, s)
  else if c = '&' then l.word fun s => (nodeName s).map fun (n, s) => (.anchor n, s)
  else if c = '!' then l.word fun s => do
    let (t, s') ← tagToken s
    if s'.atGap || (l.inFlow && s'.has ',') then some (t, s') else none
  else if c = '|' && !l.inFlow then l.block false
  else if c = '>' && !l.inFlow then l.block true
  else if c = '\'' || c = '"' then l.word (quotedToken c)
  else if l.startsPlain c then l.plain
  else none

private def run : Nat → Lexer → Option Lexer
  | 0, _ => none
  | fuel + 1, l => do
    let l ← (skipToToken (l.source.size + 1) l).dropStale
    let l := l.unroll l.source.column
    match l.source.rest with
    | [] => l.finish
    | c :: _ => run fuel (← l.token c)

end Lexer

def tokens? (s : String) : Option (List Token) :=
  let source := Source.ofText s
  if source.rest.all isAllowed then
    (Lexer.run (source.size + 2) ⟨source, [], 0, -1, [], [none], true⟩).map
      fun l => l.tokens.reverse
  else none

end SchemaSynth.Yaml
