import SchemaSynth.Json.Value
import SchemaSynth.Number.Binary64
import SchemaSynth.Yaml.Lexer
import SchemaSynth.Yaml.Node

/-! What a YAML document means as a JSON value. -/
namespace SchemaSynth.Yaml
open Json

private def digitIn (base : Nat) (c : Char) : Option Nat :=
  let d :=
    if c.isDigit then c.toNat - 48
    else if 'a' ≤ c && c ≤ 'z' then c.toNat - 87
    else if 'A' ≤ c && c ≤ 'Z' then c.toNat - 55
    else base
  if d < base then some d else none

private def numeral (base : Nat) (cs : List Char) : Option Nat :=
  if cs.isEmpty then none else cs.foldlM (fun n c => (digitIn base c).map (n * base + ·)) 0

private def unsignedPart : List Char → Option (Bool × List Char)
  | '-' :: cs => some (true, cs)
  | '+' :: cs => if cs.head? = some '-' ∨ cs.head? = some '+' then none else some (false, cs)
  | cs => some (false, cs)

/-- Zeros in front of further digits make a text of what would be a number. -/
private def isPadded : List Char → Bool
  | '0' :: d :: ds => (d :: ds).all Char.isDigit
  | _ => false

def integer? (cs : List Char) : Option Int := do
  let (negative, digits) ← unsignedPart cs
  let n ← match digits with
    | '0' :: 'x' :: ds => numeral 16 ds
    | '0' :: 'o' :: ds => numeral 8 ds
    | '0' :: 'b' :: ds => numeral 2 ds
    | ds => if isPadded ds then none else numeral 10 ds
  return if negative then -(n : Int) else n

private def digitsThen (cs : List Char) : List Char × List Char :=
  (cs.takeWhile Char.isDigit, cs.dropWhile Char.isDigit)

private def decimalExponent : List Char → Option Int
  | [] => some 0
  | e :: cs =>
    if e = 'e' ∨ e = 'E' then
      match cs with
      | '-' :: ds => (numeral 10 ds).map fun n => -(n : Int)
      | '+' :: ds => (numeral 10 ds).map fun n => (n : Int)
      | ds => (numeral 10 ds).map fun n => (n : Int)
    else none

/-- The parts of a decimal: sign, digits as one number, exponent. There is a digit on at least one
side of the point. -/
private def decimal? (cs : List Char) : Option (Bool × Nat × Int) := do
  let (negative, digits) ← unsignedPart cs
  let (whole, rest) := digitsThen digits
  let (fraction, rest) := match rest with
    | '.' :: more => digitsThen more
    | rest => ([], rest)
  if whole.isEmpty && fraction.isEmpty then none
  let exponent ← decimalExponent rest
  return (negative, ← numeral 10 (whole ++ fraction), exponent - fraction.length)

private def isNotFinite (s : String) : Bool :=
  [".inf", ".Inf", ".INF", "+.inf", "+.Inf", "+.INF", "-.inf", "-.Inf", "-.INF", ".nan", ".NaN",
    ".NAN"].contains s

/-- The double that a scalar writes. Infinities and what is no number are null. -/
private def double? (s : String) : Option Value :=
  if isNotFinite s then some .null
  else do
    let (negative, digits, exponent) ← decimal? s.toList
    return .number (.double (← Binary64.ofDecimal negative digits exponent))

private def boolean? (s : String) : Option Bool :=
  if ["true", "True", "TRUE"].contains s then some true
  else if ["false", "False", "FALSE"].contains s then some false
  else none

private def isNull (s : String) : Bool :=
  ["null", "Null", "NULL", "~"].contains s

/-- An integer as a value. One of more than 64 bits is refused if it has up to 128, and is no
integer beyond that. -/
private def integerValue? (s : String) : Option (Option Value) := do
  let i ← integer? s.toList
  if -(Word.half 64 : Int) ≤ i ∧ i < Word.limit 64 then some (some (.number (.integer i)))
  else if -(Word.half 128 : Int) ≤ i ∧ i < Word.limit 128 then some none
  else none

/-- The value of a scalar without quotes and tag. Only an integer of too many bits has none. -/
def plainValue (s : String) : Option Value :=
  if s = "" ∨ isNull s then some .null
  else match boolean? s with
    | some b => some (.boolean b)
    | none =>
      match integerValue? s with
      | some v => v
      | none =>
        if (unsignedPart s.toList).any fun (_, digits) => isPadded digits then some (.text s)
        else some ((double? s).getD (.text s))

/-- The value of a scalar. A tag of a core type asks for that type; any other but a marked one makes
it a text. -/
def scalarValue (tag : Option Tag) (plain : Bool) (s : String) : Option Value :=
  if tag = some (Tag.core "bool") then (boolean? s).map .boolean
  else if tag = some (Tag.core "int") then (integerValue? s).join
  else if tag = some (Tag.core "float") then double? s
  else if tag = some (Tag.core "null") then if isNull s then some .null else none
  else if tag.all Tag.isMarked && plain then plainValue s
  else some (.text s)

/-- Whether there is a tag of the text's own. No node with one has a value. -/
private def isLocal (tag : Option Tag) : Bool :=
  tag.any Tag.isLocal

namespace Document

private def jump (d : Document) : StateT Nat Option Unit := do
  let n ← get
  if d.events * 100 ≤ n then failure else set (n + 1)

private def keyText (d : Document) : Node → StateT Nat Option String
  | .scalar _ _ s => return s
  | .alias n => do
    d.jump
    match d.anchors.lookup n with
    | some (.scalar _ _ s) => return s
    | _ => failure
  | _ => failure

mutual

private def value (d : Document) : Nat → Nat → Node → StateT Nat Option Value
  | 0, _, _ => failure
  | fuel + 1, depth, node => do
    match node with
    | .scalar tag plain s =>
      if isLocal tag then failure else (StateT.lift (scalarValue tag plain s))
    | .sequence tag items =>
      if isLocal tag || depth == 0 then failure
      else return .list (← values d fuel (depth - 1) items)
    | .mapping tag fields =>
      if isLocal tag || depth == 0 then failure
      else return .object (← fieldValues d fuel (depth - 1) fields)
    | .alias n => do
      d.jump
      match d.anchors.lookup n with
      | some target => value d fuel depth target
      | none => failure

private def values (d : Document) : Nat → Nat → List Node → StateT Nat Option (List Value)
  | 0, _, _ => failure
  | _, _, [] => return []
  | fuel + 1, depth, node :: rest => do
    let v ← value d fuel depth node
    return v :: (← values d fuel depth rest)

private def fieldValues (d : Document) :
    Nat → Nat → List (Node × Node) → StateT Nat Option (List (String × Value))
  | 0, _, _ => failure
  | _, _, [] => return []
  | fuel + 1, depth, (k, node) :: rest => do
    let key ← d.keyText k
    let v ← value d fuel depth node
    return (key, v) :: (← fieldValues d fuel depth rest)

end

/-- The value of a document, whose collections nest to a depth of 128. Fuel is spent on every node
along a path, and along its siblings. -/
def toValue? (d : Document) : Option Value :=
  ((value d (300 * (d.events + 2)) 128 d.root).run 0).map (·.1)

end Document

def read? (s : String) : Option Value := do
  let d ← Document.ofTokens? (← tokens? s)
  return (← d.toValue?).canonical

end SchemaSynth.Yaml
