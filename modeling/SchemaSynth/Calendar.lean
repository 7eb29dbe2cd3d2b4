/-! Moments of the civil calendar, to the second. -/
namespace SchemaSynth

/-- A moment by its seconds since the start of 1970. A leap second follows the second it is told by.
-/
structure Moment where
  seconds : Int
  leap : Bool
deriving DecidableEq

namespace Moment

/-- The moments that can be written: about 262000 years either way. -/
def ofUnix? (seconds : Int) (nanoseconds : Nat) : Option Moment :=
  if seconds < -8334601228800 ∨ 8210266876799 < seconds then none
  else if nanoseconds < 1000000000 then some ⟨seconds, false⟩
  else if nanoseconds < 2000000000 ∧ seconds % 60 = 59 then some ⟨seconds, true⟩
  else none

/-- Year, month and day of a day counted from the start of 1970. Years are counted from March, so
that a leap day ends its year. -/
def civil (day : Int) : Int × Nat × Nat :=
  let z := day + 719468
  let era := z / 146097
  let dayOfEra := (z % 146097).toNat
  let yearOfEra := (dayOfEra - dayOfEra / 1460 + dayOfEra / 36524 - dayOfEra / 146096) / 365
  let dayOfYear := dayOfEra - (365 * yearOfEra + yearOfEra / 4 - yearOfEra / 100)
  let m := (5 * dayOfYear + 2) / 153
  let month := if m < 10 then m + 3 else m - 9
  let year : Int := yearOfEra + era * 400 + if month ≤ 2 then 1 else 0
  (year, month, dayOfYear - (153 * m + 2) / 5 + 1)

def padded (width n : Nat) : String :=
  let digits := toString n
  String.ofList (List.replicate (width - digits.length) '0') ++ digits

def yearText (year : Int) : String :=
  if 0 ≤ year ∧ year ≤ 9999 then padded 4 year.toNat
  else (if year < 0 then "-" else "+") ++ padded 4 year.natAbs

/-- Date and time of day in universal time. A leap second is the sixtieth of its minute. -/
def toText (m : Moment) : String :=
  let (year, month, day) := civil (m.seconds / 86400)
  let s := (m.seconds % 86400).toNat
  yearText year ++ "-" ++ padded 2 month ++ "-" ++ padded 2 day ++ "T" ++ padded 2 (s / 3600) ++ ":"
    ++ padded 2 (s / 60 % 60) ++ ":" ++ padded 2 (s % 60 + if m.leap then 1 else 0) ++ "Z"

end Moment
end SchemaSynth
