import SchemaSynth.Json.Printer
import SchemaSynth.Proofs.PassedScalars

/-! What is printed of numbers, strings and words is read as what it was printed of. -/
namespace SchemaSynth.Json
variable {c c' : Cursor} {cs tail gap : List Char} {fuel : Nat} {x : Char}

def Blank (gap : List Char) : Prop :=
  ∀ x ∈ gap, Cursor.isGap x = true

def Stops (x : Char) : Prop :=
  isDigit x = false ∧ x ≠ '.' ∧ x ≠ 'e' ∧ x ≠ 'E'

/-- A text that does not go on with a number. -/
def EndsNumber (tail : List Char) : Prop :=
  ∀ x ∈ tail.head?, Stops x

namespace Cursor

private theorem takeWhile_of_run {p : Char → Bool} {run rest : List Char} (hc : c.rest = run ++ rest)
    (hrun : ∀ x ∈ run, p x = true) (hrest : ∀ x ∈ rest.head?, p x = false) :
    (c.takeWhile p).1 = run ∧ (c.takeWhile p).2.rest = rest := by
  have hgo : ∀ place, (runWhile p place (run ++ rest)).1 = run ∧
      (runWhile p place (run ++ rest)).2.rest = rest := by
    clear hc
    intro place
    induction run generalizing place with
    | nil =>
      cases rest with
      | nil => exact ⟨rfl, rfl⟩
      | cons x rest =>
        have hx : ¬ p x = true := by simpa using hrest x rfl
        rw [List.nil_append, runWhile, if_neg hx]
        exact ⟨rfl, rfl⟩
    | cons x run ih =>
      obtain ⟨hx, hrun⟩ := List.forall_mem_cons.mp hrun
      obtain ⟨htaken, hleft⟩ := ih hrun (place.after x)
      rw [List.cons_append, runWhile, if_pos hx]
      exact ⟨congrArg (x :: ·) htaken, hleft⟩
  rw [takeWhile, hc]
  exact hgo c.place

/-- Blanks are skipped up to what is none. -/
theorem rest_skipBlanks (hc : c.rest = gap ++ cs) (hgap : Blank gap) (hcs : ∀ x ∈ cs.head?, isGap x = false) :
    c.skipBlanks.rest = cs :=
  (takeWhile_of_run hc hgap hcs).2

/-- Blanks are passed up to a character that is none. -/
theorem rest_skipBlanks_cons (hc : c.rest = gap ++ x :: cs) (hgap : Blank gap) (hx : isGap x = false) :
    c.skipBlanks.rest = x :: cs := by
  refine rest_skipBlanks hc hgap ?_
  rintro _ ⟨⟩
  exact hx

end Cursor

section Words

/-- A word is read where it stands. -/
theorem readWord_of_rest {α : Type} (a : α) (word : List Char) (hc : c.rest = word ++ tail) :
    ∃ c', readWord a word c = .ok (a, c') ∧ c'.rest = tail := by
  induction word generalizing c with
  | nil => exact ⟨c, rfl, hc⟩
  | cons x word ih =>
    rw [List.cons_append] at hc
    obtain ⟨c', hread, hrest⟩ := ih (Cursor.rest_next hc)
    refine ⟨c', ?_, hrest⟩
    rw [readWord, hc]
    exact (if_pos rfl).trans hread

end Words

section Numbers
variable {n : Nat}

/-- Numerals are made of digits. -/
theorem isDigit_of_mem_toDigits (h : x ∈ Nat.toDigits 10 n) : isDigit x = true := by
  have hdigit := Nat.isDigit_of_mem_toDigits (by decide) (by decide) h
  simpa [isDigit, Char.isDigit, Char.le_def] using hdigit

/-- No digit is a blank. -/
theorem isGap_of_isDigit (h : isDigit x = true) : Cursor.isGap x = false := by
  rw [Bool.eq_false_iff]
  intro hgap
  simp only [Cursor.isGap, Bool.or_eq_true, decide_eq_true_eq] at hgap
  rcases hgap with ((rfl | rfl) | rfl) | rfl <;> exact absurd h (by decide)

private theorem head?_toDigits (hn : 0 < n) : (Nat.toDigits 10 n).head? ≠ some '0' := by
  induction n using Nat.strongRecOn with
  | _ n ih =>
    by_cases hlt : n < 10
    · have hdigit : ∀ n < 10, 0 < n → n.digitChar ≠ '0' := by decide
      rw [Nat.toDigits_of_lt_base hlt]
      simpa using hdigit n hlt hn
    · have hrest := ih (n / 10) (Nat.div_lt_self hn (by decide)) (by omega)
      rw [Nat.toDigits_of_base_le (by decide) (by omega), List.head?_append]
      cases hhead : (Nat.toDigits 10 (n / 10)).head? with
      | none => exact absurd (List.head?_eq_none_iff.mp hhead) Nat.toDigits_ne_nil
      | some d =>
        rw [hhead] at hrest
        exact hrest

private theorem le_foldl_digits (m : Nat) (ds : List Nat) : m ≤ ds.foldl (fun n d => n * 10 + d) m := by
  induction ds generalizing m with
  | nil => exact Nat.le_refl m
  | cons d ds ih =>
    have hle := ih (m * 10 + d)
    rw [List.foldl_cons]
    omega

private theorem absorb_of_lt {m : Nat} {ds : List Nat}
    (h : ds.foldl (fun n d => n * 10 + d) m < Word.limit 64) :
    absorb m ds = (ds.foldl (fun n d => n * 10 + d) m, ds.length, 0) := by
  induction ds generalizing m with
  | nil => rfl
  | cons d ds ih =>
    rw [List.foldl_cons] at h
    rw [absorb, if_pos (Nat.lt_of_le_of_lt (le_foldl_digits _ _) h), ih h]
    rfl

private theorem foldl_digitValues (n : Nat) :
    (digitValues (Nat.toDigits 10 n)).foldl (fun n d => n * 10 + d) 0 = n := by
  have h : Nat.ofDigitChars 10 (Nat.toDigits 10 n) 0 = n :=
    Nat.ofDigitChars_toDigits (by decide) (by decide)
  rw [Nat.ofDigitChars] at h
  rw [digitValues, List.foldl_map]
  simpa [Nat.mul_comm 10] using h

/-- A numeral is read as its number, if it ends where the number does. -/
theorem readNumber_of_rest (hn : n < Word.limit 64) (hc : c.rest = Nat.toDigits 10 n ++ tail)
    (htail : EndsNumber tail) : ∃ c', readNumber .keep false c = .ok (.integer n, c') ∧ c'.rest = tail := by
  obtain ⟨htaken, hleft⟩ := Cursor.takeWhile_of_run (p := isDigit) hc
    (fun x hx => isDigit_of_mem_toDigits hx) (fun x hx => (htail x hx).1)
  have habsorb := absorb_of_lt (m := 0) ((foldl_digitValues n).symm ▸ hn)
  rw [foldl_digitValues] at habsorb
  refine ⟨(c.takeWhile isDigit).2, ?_, hleft⟩
  rw [readNumber]
  simp only [htaken]
  split
  · exact absurd ‹_› Nat.toDigits_ne_nil
  · rename_i hdigits
    rcases Nat.eq_zero_or_pos n with rfl | hpos
    · cases hdigits
    · exact absurd (hdigits ▸ rfl) (head?_toDigits hpos)
  · rw [habsorb, hleft]
    split
    · exact absurd rfl (htail _ rfl).2.1
    · exact absurd rfl (htail _ rfl).2.2.1
    · exact absurd rfl (htail _ rfl).2.2.2
    · rfl

end Numbers

section Texts
variable {done : List Char}

private theorem readText_of_escape (hc : c.rest = '\\' :: cs)
    (hescape : readEscape .keep c.next = .ok (x, c')) :
    readText .keep (fuel + 1) done c = readText .keep fuel (x :: done) c' := by
  rw [readText]
  simp only [hc]
  rw [hescape]
  rfl

/-- The letters that may follow a backslash, each with the character it stands for. -/
inductive Shorthand : Char → Char → Prop
  | quote : Shorthand '"' '"'
  | backslash : Shorthand '\\' '\\'
  | backspace : Shorthand 'b' (Char.ofNat 8)
  | formFeed : Shorthand 'f' (Char.ofNat 12)
  | lineFeed : Shorthand 'n' '\n'
  | carriageReturn : Shorthand 'r' '\r'
  | tab : Shorthand 't' '\t'

private theorem readText_of_shorthand {letter : Char} (h : Shorthand letter x)
    (hc : c.rest = '\\' :: letter :: cs) :
    ∃ c', readText .keep (fuel + 1) done c = readText .keep fuel (x :: done) c' ∧ c'.rest = cs := by
  have hnext := Cursor.rest_next hc
  refine ⟨c.next.next, readText_of_escape hc ?_, Cursor.rest_next hnext⟩
  rw [readEscape]
  simp only [hnext]
  cases h <;> rfl

private theorem readCodePoint_of_rest (hx : x.toNat < 32)
    (hc : c.rest = '0' :: '0' :: Nat.digitChar (x.toNat / 16) :: Nat.digitChar (x.toNat % 16) :: cs) :
    ∃ c', readCodePoint .keep c = .ok (x, c') ∧ c'.rest = cs := by
  have hnumber : ∀ n < 32, hexNumber 0 ['0', '0', Nat.digitChar (n / 16), Nat.digitChar (n % 16)] = some n := by
    decide
  have htaken : c.rest.take 4 = ['0', '0', Nat.digitChar (x.toNat / 16), Nat.digitChar (x.toNat % 16)] := by
    rw [hc]
    rfl
  have hbytes : c.hasBytes 4 = true := by
    have htens := Char.utf8Size_pos (Nat.digitChar (x.toNat / 16))
    have hones := Char.utf8Size_pos (Nat.digitChar (x.toNat % 16))
    have hzero : '0'.utf8Size = 1 := by decide
    rw [Cursor.hasBytes, htaken, decide_eq_true_iff]
    simp only [List.foldl_cons, List.foldl_nil, hzero]
    omega
  have hhex : readHex c = .ok (x.toNat, c.next.next.next.next) := by
    rw [readHex, hbytes, htaken, hnumber _ hx]
    rfl
  refine ⟨c.next.next.next.next, ?_, ?_⟩
  · have htrailing : isTrailing x.toNat = false := by
      rw [isTrailing, Bool.and_eq_false_iff, decide_eq_false_iff_not]
      exact Or.inl (by omega)
    have hleading : isLeading x.toNat = false := by
      rw [isLeading, Bool.and_eq_false_iff, decide_eq_false_iff_not]
      exact Or.inl (by omega)
    rw [readCodePoint, hhex]
    simp only [bind, Except.bind, htrailing, hleading]
    rw [Char.ofNat_toNat]
    rfl
  · exact Cursor.rest_next (Cursor.rest_next (Cursor.rest_next (Cursor.rest_next hc)))

private theorem readText_of_escaped (hc : c.rest = escape x ++ cs) :
    ∃ c', readText .keep (fuel + 1) done c = readText .keep fuel (x :: done) c' ∧ c'.rest = cs := by
  unfold escape at hc
  split at hc
  · exact readText_of_shorthand .quote hc
  · exact readText_of_shorthand .backslash hc
  · exact readText_of_shorthand .lineFeed hc
  · exact readText_of_shorthand .carriageReturn hc
  · exact readText_of_shorthand .tab hc
  · rename_i hquote hbackslash _ _ _
    have hchar {n : Nat} (hn : (x.toNat == n) = true) : x = Char.ofNat n := by
      rw [← beq_iff_eq.mp hn, Char.ofNat_toNat]
    split at hc
    · rename_i hback
      exact readText_of_shorthand (hchar hback ▸ .backspace) hc
    split at hc
    · rename_i hform
      exact readText_of_shorthand (hchar hform ▸ .formFeed) hc
    split at hc
    · rename_i hcontrol
      have hnext := Cursor.rest_next hc
      obtain ⟨c', hread, hrest⟩ := readCodePoint_of_rest hcontrol (Cursor.rest_next hnext)
      refine ⟨c', readText_of_escape hc ?_, hrest⟩
      rw [readEscape]
      simp only [hnext]
      exact hread
    · rename_i hplain
      refine ⟨c.next, ?_, Cursor.rest_next hc⟩
      rw [readText]
      simp only [hc, List.singleton_append]
      exact if_neg hplain

/-- Escapes make no text shorter. -/
theorem length_le_flatMap_escape (text : List Char) : text.length ≤ (text.flatMap escape).length := by
  have hescape (x : Char) : 1 ≤ (escape x).length := by
    unfold escape
    split <;> try exact Nat.le_add_left 1 _
    split
    · exact Nat.le_add_left 1 _
    split
    · exact Nat.le_add_left 1 _
    split <;> exact Nat.le_add_left 1 _
  induction text with
  | nil => exact Nat.le_refl 0
  | cons x text ih =>
    have hx := hescape x
    rw [List.flatMap_cons, List.length_append, List.length_cons]
    omega

/-- A string is read as it was quoted. -/
theorem readText_of_quoted {text : List Char} (hc : c.rest = text.flatMap escape ++ '"' :: cs)
    (hfuel : text.length < fuel) (done : List Char) :
    ∃ c', readText .keep fuel done c = .ok (String.ofList (done.reverse ++ text), c') ∧ c'.rest = cs := by
  induction text generalizing c fuel done with
  | nil =>
    obtain ⟨fuel, rfl⟩ := Nat.exists_eq_add_one.mpr hfuel
    refine ⟨c.next, ?_, Cursor.rest_next hc⟩
    rw [readText]
    simp only [hc, List.flatMap_nil, List.nil_append, List.append_nil]
  | cons x text ih =>
    obtain ⟨fuel, rfl⟩ := Nat.exists_eq_add_one.mpr (Nat.lt_of_le_of_lt (Nat.zero_le _) hfuel)
    rw [List.flatMap_cons, List.append_assoc] at hc
    obtain ⟨c', hstep, hrest⟩ := readText_of_escaped hc
    obtain ⟨c'', hread, hrest'⟩ := ih hrest (Nat.lt_of_succ_lt_succ hfuel) (x :: done)
    refine ⟨c'', ?_, hrest'⟩
    rw [hstep, hread]
    simp

end Texts

end SchemaSynth.Json
