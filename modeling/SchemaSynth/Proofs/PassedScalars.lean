import SchemaSynth.Json.Reader
import SchemaSynth.Proofs.Sequence

/-! Numbers and strings that can be kept can be passed over, up to the same place. -/
namespace SchemaSynth.Json
variable {α : Type} {c c' : Cursor} {use : Use} {fuel depth : Nat} {x : Char} {cs : List Char}

namespace Cursor

/-- A step takes one character. -/
theorem rest_next (h : c.rest = x :: cs) : c.next.rest = cs := by
  rw [next, h]

/-- A step makes the rest no longer. -/
theorem length_next_le (c : Cursor) : c.next.rest.length ≤ c.rest.length := by
  cases h : c.rest with
  | nil => simp [next, h]
  | cons x cs => simp [rest_next h]

private theorem length_runWhile (p : Char → Bool) (place : Place) (cs : List Char) :
    (runWhile p place cs).1.length + (runWhile p place cs).2.rest.length = cs.length := by
  induction cs generalizing place with
  | nil => rfl
  | cons x cs ih =>
    by_cases h : p x
    · simp only [runWhile, h, if_true, List.length_cons]
      have := ih (place.after x)
      omega
    · simp [runWhile, h]

private theorem length_takeWhile (p : Char → Bool) (c : Cursor) :
    (c.takeWhile p).1.length + (c.takeWhile p).2.rest.length = c.rest.length :=
  length_runWhile p c.place c.rest

/-- Passing blanks makes the rest no longer. -/
theorem length_skipBlanks_le (c : Cursor) : c.skipBlanks.rest.length ≤ c.rest.length := by
  have := c.length_takeWhile isGap
  rw [skipBlanks]
  omega

/-- A character behind blanks makes the rest shorter. -/
theorem length_next_skipBlanks_lt (h : c.skipBlanks.rest = x :: cs) :
    c.skipBlanks.next.rest.length < c.rest.length := by
  have hle := c.length_skipBlanks_le
  rw [h, List.length_cons] at hle
  rw [rest_next h]
  omega

def entry (first : Bool) (c : Cursor) : Cursor :=
  if first then c.skipBlanks else c.skipBlanks.next.skipBlanks

/-- An entry starts no earlier than where it is looked for. -/
theorem length_entry_le (first : Bool) (c : Cursor) : (c.entry first).rest.length ≤ c.rest.length := by
  have h₁ := c.length_skipBlanks_le
  have h₂ := c.skipBlanks.length_next_le
  have h₃ := c.skipBlanks.next.length_skipBlanks_le
  rw [entry]
  split <;> omega

end Cursor
open Cursor

/-- The text is read from one place up to a later one, and whoever reads it again with fuel enough comes
there as well, with the same result if it is kept. -/
def Rereads (c c' : Cursor) (bound : Nat) (reading : Use → Nat → Except TextError (α × Cursor)) (a : α) :
    Prop :=
  c'.rest.length < c.rest.length ∧ ∀ use fuel, bound ≤ fuel →
    ∃ a', reading use fuel = .ok (a', c') ∧ (use = .keep → a' = a)

/-- With fuel enough a text is read again to the same value and the same place. -/
theorem Rereads.kept {bound : Nat} {reading : Use → Nat → Except TextError (α × Cursor)} {a : α}
    (h : Rereads c c' bound reading a) (hfuel : bound ≤ fuel) : reading .keep fuel = .ok (a, c') := by
  obtain ⟨a', ha', hsame⟩ := h.2 .keep fuel hfuel
  rw [ha', hsame rfl]

/-- A word that is read has its value, and leaves no more than there was. -/
theorem readWord_eq_ok {a b : α} {word : List Char} (h : readWord a word c = .ok (b, c')) :
    b = a ∧ c'.rest.length ≤ c.rest.length := by
  induction word generalizing c with
  | nil =>
    cases h
    exact ⟨rfl, Nat.le_refl _⟩
  | cons x word ih =>
    rw [readWord] at h
    split at h
    · cases h
    · split at h
      · exact ⟨(ih h).1, Nat.le_trans (ih h).2 c.length_next_le⟩
      · cases h

section Numbers
variable {negative : Bool} {significand dropped : Nat} {exponent : Int} {n : Number}

private theorem finishDouble_pass (h : finishDouble .keep negative significand exponent c = .ok (n, c')) :
    c' = c ∧ finishDouble .pass negative significand exponent c = .ok (.integer 0, c') := by
  have hsame : c' = c := by
    simp only [finishDouble, reduceCtorEq, if_false] at h
    split at h <;> cases h
    rfl
  exact ⟨hsame, hsame ▸ rfl⟩

private theorem readExponent_pass (h : readExponent .keep negative significand exponent c = .ok (n, c')) :
    c'.rest.length ≤ c.rest.length ∧
      ∃ n', readExponent .pass negative significand exponent c = .ok (n', c') := by
  have hnext := c.length_next_le
  have hrun := c.length_takeWhile isDigit
  have hrun' := c.next.length_takeWhile isDigit
  simp only [readExponent] at h ⊢
  split at h
  all_goals
    dsimp only at h ⊢
    split at h
    · cases h
    · rename_i hdigits
      rw [if_neg hdigits]
      split at h
      · obtain ⟨rfl, hpass⟩ := finishDouble_pass h
        exact ⟨by omega, _, hpass⟩
      · split at h
        · cases h
          exact ⟨by omega, _, rfl⟩
        · cases h

private theorem readFraction_pass (h : readFraction .keep negative significand exponent c = .ok (n, c')) :
    c'.rest.length ≤ c.rest.length ∧
      ∃ n', readFraction .pass negative significand exponent c = .ok (n', c') := by
  have hrun := c.length_takeWhile isDigit
  have hnext := (c.takeWhile isDigit).2.length_next_le
  simp only [readFraction] at h ⊢
  split at h
  · cases h
  · rename_i hdigits
    rw [if_neg hdigits]
    split at h
    · obtain ⟨hle, hpass⟩ := readExponent_pass h
      exact ⟨by omega, hpass⟩
    · obtain ⟨hle, hpass⟩ := readExponent_pass h
      exact ⟨by omega, hpass⟩
    · obtain ⟨rfl, hpass⟩ := finishDouble_pass h
      exact ⟨by omega, _, hpass⟩

private theorem wholeNumber_pass (h : wholeNumber .keep negative significand dropped c = .ok (n, c')) :
    c' = c ∧ ∃ n', wholeNumber .pass negative significand dropped c = .ok (n', c') := by
  simp only [wholeNumber] at h ⊢
  by_cases hpositive : (dropped == 0 && !negative) = true
  · rw [if_pos hpositive] at h
    cases h
    exact ⟨rfl, _, if_pos hpositive⟩
  rw [if_neg hpositive] at h ⊢
  by_cases hnegative : (dropped == 0 && significand != 0 && significand ≤ Word.half 64) = true
  · rw [if_pos hnegative] at h
    cases h
    exact ⟨rfl, _, if_pos hnegative⟩
  rw [if_neg hnegative] at h ⊢
  obtain ⟨rfl, hpass⟩ := finishDouble_pass h
  exact ⟨rfl, _, hpass⟩

/-- A number is passed over up to the place where it ends if it is kept. -/
theorem readNumber_pass (h : readNumber .keep negative c = .ok (n, c')) :
    c'.rest.length < c.rest.length ∧ ∃ n', readNumber .pass negative c = .ok (n', c') := by
  have hrun := c.length_takeWhile isDigit
  have hnext := (c.takeWhile isDigit).2.length_next_le
  simp only [readNumber] at h ⊢
  split at h
  · cases h
  · cases h
  · rename_i hsome _
    have hpos : 0 < (c.takeWhile isDigit).1.length := List.length_pos_iff.mpr hsome
    split at h
    · obtain ⟨hle, hpass⟩ := readFraction_pass h
      exact ⟨by omega, hpass⟩
    · obtain ⟨hle, hpass⟩ := readExponent_pass h
      exact ⟨by omega, hpass⟩
    · obtain ⟨hle, hpass⟩ := readExponent_pass h
      exact ⟨by omega, hpass⟩
    · obtain ⟨rfl, hpass⟩ := wholeNumber_pass h
      exact ⟨by omega, hpass⟩

end Numbers

section Texts
variable {done : List Char} {s : String} {y : Char}

private theorem length_readHex_le {n : Nat} (h : readHex c = .ok (n, c')) :
    c'.rest.length ≤ c.rest.length := by
  rw [readHex] at h
  split at h
  · cases h
  · split at h
    · cases h
      have h₁ := c.length_next_le
      have h₂ := c.next.length_next_le
      have h₃ := c.next.next.length_next_le
      have h₄ := c.next.next.next.length_next_le
      omega
    · cases h

private theorem expectAfterPairHalf_eq_ok {u : Unit} (h : expectAfterPairHalf x c = .ok (u, c')) :
    ∃ cs, c.rest = x :: cs ∧ c' = c.next := by
  rw [expectAfterPairHalf] at h
  split at h
  · cases h
  · split at h
    · rename_i heq hx
      cases h
      exact ⟨_, hx ▸ heq, rfl⟩
    · cases h

private theorem readHex_of_readCodePoint (h : readCodePoint .keep c = .ok (x, c')) :
    ∃ n c₁, readHex c = .ok (n, c₁) ∧ (c₁ = c' ∨ ∃ cs cs' m, c₁.rest = '\\' :: cs ∧
      c₁.next.rest = 'u' :: cs' ∧ readHex c₁.next.next = .ok (m, c')) := by
  simp only [readCodePoint, bind_eq_ok, reduceCtorEq, if_false, Prod.exists] at h
  obtain ⟨n, c₁, hfirst, h⟩ := h
  refine ⟨n, c₁, hfirst, ?_⟩
  split at h
  · cases h
  · split at h
    · simp only [bind_eq_ok, Prod.exists] at h
      obtain ⟨_, c₂, hslash, _, c₃, hu, m, c₄, hsecond, h⟩ := h
      obtain ⟨cs, hcs, rfl⟩ := expectAfterPairHalf_eq_ok hslash
      obtain ⟨cs', hcs', rfl⟩ := expectAfterPairHalf_eq_ok hu
      split at h
      · obtain rfl : c₄ = c' := (Prod.mk.inj (Except.ok.inj h)).2
        exact Or.inr ⟨cs, cs', m, hcs, hcs', hsecond⟩
      · cases h
    · cases h
      exact Or.inl rfl

private theorem readCodePoint_pass {n : Nat} (h : readHex c = .ok (n, c')) :
    readCodePoint .pass c = .ok (' ', c') := by
  rw [readCodePoint, bind_eq_ok]
  exact ⟨(n, c'), h, if_pos rfl⟩

private theorem readEscape_pass (h : readEscape .keep c = .ok (x, c')) :
    c'.rest.length < c.rest.length ∧ ∃ y c₁, readEscape .pass c = .ok (y, c₁) ∧ (c₁ = c' ∨
      ∃ cs z, c₁.rest = '\\' :: cs ∧ readEscape .pass c₁.next = .ok (z, c')) := by
  simp only [readEscape] at h ⊢
  split at h
  · cases h
  rename_i y cs hrest
  have hlen : c.next.rest.length < c.rest.length := by
    rw [rest_next hrest, hrest]
    exact Nat.lt_succ_self _
  split at h
  case h_9 =>
    obtain ⟨n, c₁, hfirst, hc₁⟩ := readHex_of_readCodePoint h
    have hle := length_readHex_le hfirst
    have hfirst' := readCodePoint_pass hfirst
    rcases hc₁ with rfl | ⟨cs₁, cs₂, m, hslash, hu, hsecond⟩
    · exact ⟨by omega, _, _, hfirst', Or.inl rfl⟩
    · have hle' := length_readHex_le hsecond
      have h₁ := c₁.length_next_le
      have h₂ := c₁.next.length_next_le
      refine ⟨by omega, _, _, hfirst', Or.inr ⟨cs₁, ' ', hslash, ?_⟩⟩
      rw [hu]
      exact readCodePoint_pass hsecond
  case h_10 => cases h
  all_goals
    cases h
    exact ⟨hlen, _, _, rfl, Or.inl rfl⟩

/-- For a string there is fuel enough if there is some for each character. -/
theorem readText_rereads (h : readText .keep fuel done c = .ok (s, c')) :
    ∃ cs, s = String.ofList (done.reverse ++ cs) ∧ ∀ done', Rereads c c' c.rest.length
      (readText · · done' c) (String.ofList (done'.reverse ++ cs)) := by
  induction fuel generalizing c done with
  | zero => cases h
  | succ fuel ih =>
    rw [readText] at h
    split at h
    case h_1 => cases h
    all_goals
      rename_i heq
      have hlen : c.next.rest.length < c.rest.length := by
        rw [rest_next heq, heq]
        exact Nat.lt_succ_self _
    case h_2 cs =>
      cases h
      refine ⟨[], by simp, fun done' => ⟨hlen, fun use fuel' hfuel => ?_⟩⟩
      obtain ⟨fuel', rfl⟩ := Nat.exists_eq_add_one.mpr (show 0 < fuel' by omega)
      simp only [readText, heq, List.append_nil]
      exact ⟨_, rfl, fun _ => rfl⟩
    case h_3 cs =>
      obtain ⟨⟨y, c₁⟩, hescape, h⟩ := bind_eq_ok.mp h
      obtain ⟨hle, z, d, hfirst, hd⟩ := readEscape_pass hescape
      obtain ⟨cs, rfl, hrereads⟩ := ih h
      refine ⟨y :: cs, by simp, fun done' => ⟨by have := (hrereads []).1; omega, fun use fuel' hfuel => ?_⟩⟩
      obtain ⟨fuel', rfl⟩ := Nat.exists_eq_add_one.mpr (show 0 < fuel' by omega)
      simp only [readText, heq]
      cases use with
      | keep =>
        obtain ⟨s', hs', hsame⟩ := (hrereads (y :: done')).2 .keep fuel' (by omega)
        exact ⟨s', bind_eq_ok.mpr ⟨_, hescape, hs'⟩, fun hkeep => by simpa using hsame hkeep⟩
      | pass =>
        rcases hd with rfl | ⟨cs', z', hslash, hsecond⟩
        · obtain ⟨s', hs', _⟩ := (hrereads (z :: done')).2 .pass fuel' (by omega)
          exact ⟨s', bind_eq_ok.mpr ⟨_, hfirst, hs'⟩, nofun⟩
        · obtain ⟨fuel', rfl⟩ := Nat.exists_eq_add_one.mpr (show 0 < fuel' by omega)
          obtain ⟨s', hs', _⟩ := (hrereads (z' :: z :: done')).2 .pass fuel' (by omega)
          refine ⟨s', bind_eq_ok.mpr ⟨_, hfirst, ?_⟩, nofun⟩
          simp only [readText, hslash]
          exact bind_eq_ok.mpr ⟨_, hsecond, hs'⟩
    case h_4 y cs _ _ =>
      split at h
      · cases h
      rename_i hcontrol
      obtain ⟨cs, rfl, hrereads⟩ := ih h
      refine ⟨y :: cs, by simp, fun done' => ⟨by have := (hrereads []).1; omega, fun use fuel' hfuel => ?_⟩⟩
      obtain ⟨fuel', rfl⟩ := Nat.exists_eq_add_one.mpr (show 0 < fuel' by omega)
      simp only [readText, heq]
      rw [if_neg hcontrol]
      obtain ⟨s', hs', hsame⟩ := (hrereads (y :: done')).2 use fuel' (by omega)
      exact ⟨s', hs', fun hkeep => by simpa using hsame hkeep⟩

end Texts

end SchemaSynth.Json
