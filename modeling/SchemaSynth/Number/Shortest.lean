import SchemaSynth.Number.Binary64

/-! The fewest decimal digits that read back as the same number, and their layout as text. -/
namespace SchemaSynth.Binary64

/-- Decimal digits of a positive number: the value is `0.d₁d₂… · 10^point`. -/
structure Digits where
  digits : List Nat
  point : Int

private def digitsOf : Nat → Nat → List Nat → List Nat
  | 0, _, acc => acc
  | fuel + 1, n, acc => if n == 0 then acc else digitsOf fuel (n / 10) (n % 10 :: acc)

/-- The interval of values that round to a positive number, as numerators over one denominator:
lower end, value, upper end. The gap below a power of two is half as wide. -/
private def interval (x : Binary64) : Nat × Nat × Nat × Nat :=
  let e := x.exponent - 2
  let low := if x.mantissa == Nat.pow 2 52 && x.exponent != -1074 then 1 else 2
  let f := Nat.pow 2 e.toNat
  ((4 * x.mantissa - low) * f, 4 * x.mantissa * f, (4 * x.mantissa + 2) * f, Nat.pow 2 (-e).toNat)

private def magnitude (n d : Nat) : Nat → Int → Int
  | 0, p => p
  | fuel + 1, p =>
    if n * Nat.pow 10 (-p).toNat < d * Nat.pow 10 p.toNat then p else magnitude n d fuel (p + 1)

/-- The point of the grid `10^step` nearest to the value among those that read back, if one does. An
exact tie goes to the even point. -/
private def onGrid (x : Binary64) (step : Int) : Option Nat :=
  let (lo, v, hi, d) := interval x
  let up := Nat.pow 10 step.toNat
  let down := Nat.pow 10 (-step).toNat
  let unit := d * up
  let point := v * down / unit
  let inside (k : Nat) : Bool :=
    let w := k * unit
    if x.mantissa % 2 == 0 then lo * down ≤ w && w ≤ hi * down else lo * down < w && w < hi * down
  let below := v * down - point * unit
  let above := (point + 1) * unit - v * down
  let closer := below < above || (below == above && point % 2 == 0)
  match point != 0 && inside point, inside (point + 1) with
  | true, true => some (if closer then point else point + 1)
  | true, false => some point
  | false, true => some (point + 1)
  | false, false => none

private def search (x : Binary64) (p : Int) : Nat → Nat → Digits
  | 0, _ => ⟨[], p⟩
  | left + 1, count =>
    match onGrid x (p - count) with
    | none => search x p left (count + 1)
    | some k =>
      let ds := digitsOf (count + 1) k []
      ⟨ds, p + (ds.length - count)⟩

def shortest (x : Binary64) : Digits :=
  let (_, v, _, d) := interval x
  let bits : Int := (v.log2 : Int) - (d.log2 : Int)
  let p := magnitude v d 800 (if 0 ≤ bits then bits * 3 / 10 - 1 else bits / 3 - 1)
  search x p 17 1

private def text (ds : List Nat) : String :=
  String.ofList (ds.map Nat.digitChar)

private def zeros (n : Nat) : String :=
  String.ofList (List.replicate n '0')

private def withoutTrailingZeros (ds : List Nat) : List Nat :=
  (ds.reverse.dropWhile (· == 0)).reverse

/-- Positional with at least one decimal from `0.00001` up to `10^16`, else scientific with a sign
on positive exponents as well. -/
def layout (d : Digits) : String :=
  let ds := withoutTrailingZeros d.digits
  let n : Int := ds.length
  if -4 ≤ d.point && d.point ≤ 0 then "0." ++ zeros (-d.point).toNat ++ text ds
  else if 0 < d.point && d.point < n then
    text (ds.take d.point.toNat) ++ "." ++ text (ds.drop d.point.toNat)
  else if 0 < d.point && d.point ≤ 16 then text ds ++ zeros (d.point - n).toNat ++ ".0"
  else
    let e := d.point - 1
    let power := (if e < 0 then "e-" else "e+") ++ toString e.natAbs
    match ds with
    | [] => ""
    | [first] => text [first] ++ power
    | first :: rest => text [first] ++ "." ++ text rest ++ power

def toText (x : Binary64) : String :=
  (if x.negative then "-" else "") ++ if x.mantissa == 0 then "0.0" else layout x.shortest

end SchemaSynth.Binary64
