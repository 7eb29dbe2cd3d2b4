/-! Lengths and cuts measured in UTF-8 bytes. -/
namespace SchemaSynth.Text

def byteLength : List Char → Nat
  | [] => 0
  | c :: cs => c.utf8Size + byteLength cs

/-- The longest run of whole characters at the start that takes at most `limit` bytes. -/
def takeBytes (limit : Nat) : List Char → List Char
  | [] => []
  | c :: cs => if c.utf8Size ≤ limit then c :: takeBytes (limit - c.utf8Size) cs else []

/-- What is taken is within the limit. -/
theorem byteLength_takeBytes_le (limit : Nat) (cs : List Char) :
    byteLength (takeBytes limit cs) ≤ limit := by
  induction cs generalizing limit with
  | nil => exact Nat.zero_le _
  | cons c cs ih =>
    by_cases h : c.utf8Size ≤ limit
    · have := ih (limit - c.utf8Size)
      simp only [takeBytes,h,if_true,byteLength]
      omega
    · simp [takeBytes,h,byteLength]

/-- A text within the limit is taken whole. -/
theorem takeBytes_of_le {limit : Nat} {cs : List Char} (h : byteLength cs ≤ limit) :
    takeBytes limit cs = cs := by
  induction cs generalizing limit with
  | nil => rfl
  | cons c cs ih =>
    simp only [byteLength] at h
    have hc : c.utf8Size ≤ limit := by omega
    have hr : takeBytes (limit - c.utf8Size) cs = cs := ih (by omega)
    simp [takeBytes,hc,hr]

end SchemaSynth.Text
