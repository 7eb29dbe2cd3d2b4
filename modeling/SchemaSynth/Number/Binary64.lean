/-! Numbers as machines hold them: the bounds of their words, and finite binary floating-point numbers of 64
bits, rounded to nearest in exact integer arithmetic. -/
namespace SchemaSynth

namespace Word

def limit (bits : Nat) : Nat := Nat.pow 2 bits

def half (bits : Nat) : Nat := Nat.pow 2 (bits - 1)

end Word

/-- The number `±mantissa · 2^exponent`. Every number has one form: the mantissa has 53 bits, or
fewer with the least exponent `-1074`. -/
structure Binary64 where
  negative : Bool
  mantissa : Nat
  exponent : Int
deriving DecidableEq

namespace Binary64

def zero (negative : Bool) : Binary64 :=
  ⟨negative, 0, -1074⟩

def scaled (numerator denominator : Nat) (exponent : Int) : Nat × Nat :=
  (numerator * Nat.pow 2 (-exponent).toNat, denominator * Nat.pow 2 exponent.toNat)

/-- The quotient rounded to the nearest integer, a tie to the even one. -/
def roundQuotient (numerator denominator : Nat) : Nat :=
  let q := numerator / denominator
  let twice := 2 * (numerator % denominator)
  if denominator < twice || (denominator == twice && q % 2 == 1) then q + 1 else q

/-- The number nearest to `numerator / denominator`, a tie to the even mantissa, or `none` where
that is beyond the largest number. -/
def ofRatio (negative : Bool) (numerator denominator : Nat) : Option Binary64 :=
  if numerator == 0 || denominator == 0 then some (zero negative) else
  let guess : Int := (numerator.log2 : Int) - (denominator.log2 : Int) - 52
  let (n, d) := scaled numerator denominator guess
  let exponent := max (if n / d < Nat.pow 2 52 then guess - 1 else guess) (-1074)
  let (n, d) := scaled numerator denominator exponent
  let m := roundQuotient n d
  let (m, exponent) := if m == Nat.pow 2 53 then (Nat.pow 2 52, exponent + 1) else (m, exponent)
  if 971 < exponent then none else some ⟨negative, m, exponent⟩

def ofNat (negative : Bool) (n : Nat) : Option Binary64 :=
  ofRatio negative n 1

def mul (a b : Binary64) : Option Binary64 :=
  let e := a.exponent + b.exponent
  ofRatio (a.negative != b.negative) (a.mantissa * b.mantissa * Nat.pow 2 e.toNat)
    (Nat.pow 2 (-e).toNat)

def div (a b : Binary64) : Option Binary64 :=
  let e := a.exponent - b.exponent
  ofRatio (a.negative != b.negative) (a.mantissa * Nat.pow 2 e.toNat)
    (b.mantissa * Nat.pow 2 (-e).toNat)

/-- The number nearest to `significand · 10^exponent`, or `none` beyond the largest number.
Exponents that settle the answer are not raised. -/
def ofDecimal (negative : Bool) (significand : Nat) (exponent : Int) : Option Binary64 :=
  let magnitude : Int := (significand.log2 : Int) / 4 + exponent
  if significand == 0 || exponent + (significand.log2 : Int) < -400 then some (zero negative)
  else if 400 < magnitude then none
  else ofRatio negative (significand * Nat.pow 10 exponent.toNat) (Nat.pow 10 (-exponent).toNat)

/-- The product of the rounded significand with a rounded power of ten, each step rounded. The power
is one of `10^0` to `10^308`; below that the number is first divided by `10^308`, as often as
needed. -/
def ofParts (negative : Bool) (significand : Nat) (exponent : Int) : Option Binary64 := do
  scale (exponent.natAbs / 308 + 1) (← ofNat negative significand) exponent
where
  power (k : Nat) : Option Binary64 := ofNat false (Nat.pow 10 k)
  scale : Nat → Binary64 → Int → Option Binary64
    | 0, f, _ => some f
    | steps + 1, f, e =>
      if f.mantissa == 0 then some f
      else if 308 < e then none
      else if 0 ≤ e then do mul f (← power e.toNat)
      else if -308 ≤ e then do div f (← power (-e).toNat)
      else do scale steps (← div f (← power 308)) (e + 308)

end Binary64
end SchemaSynth
