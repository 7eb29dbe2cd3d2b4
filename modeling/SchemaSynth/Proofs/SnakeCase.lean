import SchemaSynth.Proofs.Identifiers
import Mathlib.Data.List.DropRight
import Mathlib.Data.Set.Operations

/-! Names in snake case. Any text is made one, and one that is in snake case is kept as it is. What is
stripped from the ends of a text before leaves no trace in the name. -/
namespace SchemaSynth

namespace Text
variable {α β : Type} {f : List α → β} {p : α → Bool} {c : α} {cs : List α}

def strip (p : α → Bool) (cs : List α) : List α :=
  (cs.dropWhile p).rdropWhile p

/-- To trim is to strip blanks. -/
theorem trim_eq_strip (cs : List Char) : trim cs = strip isBlank cs := rfl

private theorem strip_cons (h : p c = true) (cs : List α) : strip p (c :: cs) = strip p cs := by
  rw [strip, List.dropWhile_cons_of_pos h, strip]

/-- An item of the kind at the end is stripped. -/
theorem strip_concat (h : p c = true) (cs : List α) : strip p (cs ++ [c]) = strip p cs := by
  rw [strip, strip, List.dropWhile_append]
  split
  · rename_i hall
    rw [List.isEmpty_iff.mp hall, List.dropWhile_cons_of_pos h, List.dropWhile_nil]
  · exact List.rdropWhile_concat_pos p _ c h

private theorem strip_eq_self (hstart : ∀ c ∈ cs.head?, p c = false) (hend : ∀ c ∈ cs.getLast?, p c = false) :
    strip p cs = cs := by
  have hdrop : cs.dropWhile p = cs := by
    cases cs with
    | nil => rfl
    | cons c cs => exact List.dropWhile_cons_of_neg (by simp [hstart c rfl])
  rw [strip, hdrop, List.rdropWhile_eq_self_iff]
  intro hne
  simp [hend _ (List.getLast?_eq_some_getLast hne)]

private theorem head_strip (h : strip p cs ≠ []) : p ((strip p cs).head h) = false := by
  have hstart : strip p cs <+: cs.dropWhile p := List.rdropWhile_prefix p _
  rw [hstart.head h]
  exact List.head_dropWhile_not p _

private theorem getLast_strip (h : strip p cs ≠ []) : p ((strip p cs).getLast h) = false :=
  Bool.eq_false_iff.mpr (List.rdropWhile_last_not p (cs.dropWhile p) h)

/-- A value that no item of the kind changes at an end is the same after stripping. -/
theorem apply_dropWhile (h : ∀ c cs, p c = true → f (c :: cs) = f cs) (cs : List α) :
    f (cs.dropWhile p) = f cs := by
  induction cs with
  | nil => rfl
  | cons c cs ih =>
    cases hc : p c with
    | true => rw [List.dropWhile_cons_of_pos hc, ih, h c cs hc]
    | false => rw [List.dropWhile_cons_of_neg (by simp [hc])]

/-- A value that ignores items of a kind at both ends ignores stripping them. -/
theorem apply_strip (hstart : ∀ c cs, p c = true → f (c :: cs) = f cs)
    (hend : ∀ c cs, p c = true → f (cs ++ [c]) = f cs) (cs : List α) : f (strip p cs) = f cs := by
  rw [← apply_dropWhile hstart cs, strip]
  induction cs.dropWhile p using List.reverseRecOn with
  | nil => rfl
  | append_singleton cs c ih =>
    cases hc : p c with
    | true => rw [List.rdropWhile_concat_pos p cs c hc, ih, hend c cs hc]
    | false => rw [List.rdropWhile_concat_neg p cs c (by simp [hc])]

end Text

namespace Identifier
open Text
variable {s : String} {c : Char} {cs : List Char}

private theorem isBlank_of_isWord (h : isWord c = true) : isBlank c = false :=
  of_isWord (P := fun c => isBlank c = false) (by decide) h

/-- No blank is a word character. -/
theorem isWord_of_isBlank (h : isBlank c = true) : isWord c = false := by
  rw [Bool.eq_false_iff]
  intro hword
  exact Bool.eq_false_iff.mp (isBlank_of_isWord hword) h

private theorem trimUnderscores_cons (cs : List Char) : trimUnderscores ('_' :: cs) = trimUnderscores cs :=
  strip_cons (by decide) cs

private theorem trimUnderscores_concat (cs : List Char) : trimUnderscores (cs ++ ['_']) = trimUnderscores cs :=
  strip_concat (by decide) cs

def joinedWords (cs : List Char) : List Char :=
  trimUnderscores ((joinBlanks false cs).filter isWord)

private theorem joinBlanks_of_blank (h : isBlank c = true) (inRun : Bool) (cs : List Char) :
    joinBlanks inRun (c :: cs) = (if inRun then [] else ['_']) ++ joinBlanks true cs := by
  cases inRun <;> simp [joinBlanks, h]

private theorem joinBlanks_of_not_blank (h : isBlank c = false) (inRun : Bool) (cs : List Char) :
    joinBlanks inRun (c :: cs) = c :: joinBlanks false cs := by
  simp [joinBlanks, h]

private theorem exists_joinBlanks_append (inRun : Bool) (cs : List Char) : ∃ run, ∀ ds,
    joinBlanks inRun (cs ++ ds) = joinBlanks inRun cs ++ joinBlanks run ds := by
  induction cs generalizing inRun with
  | nil => exact ⟨inRun, fun _ => rfl⟩
  | cons c cs ih =>
    cases hc : isBlank c with
    | true =>
      obtain ⟨run, hrun⟩ := ih true
      refine ⟨run, fun ds => ?_⟩
      rw [List.cons_append, joinBlanks_of_blank hc, joinBlanks_of_blank hc, hrun, List.append_assoc]
    | false =>
      obtain ⟨run, hrun⟩ := ih false
      refine ⟨run, fun ds => ?_⟩
      rw [List.cons_append, joinBlanks_of_not_blank hc, joinBlanks_of_not_blank hc, hrun,
        List.cons_append]

private theorem trimUnderscores_joinBlanks (inRun : Bool) (cs : List Char) :
    trimUnderscores ((joinBlanks inRun cs).filter isWord) = joinedWords cs := by
  cases cs with
  | nil => rfl
  | cons c cs =>
    cases hc : isBlank c with
    | true =>
      have hword : isWord '_' = true := by decide
      rw [joinedWords, joinBlanks_of_blank hc, joinBlanks_of_blank hc]
      cases inRun <;> simp [List.filter_cons_of_pos hword, trimUnderscores_cons]
    | false => rw [joinedWords, joinBlanks_of_not_blank hc, joinBlanks_of_not_blank hc]

private theorem joinedWords_cons (h : isWord c = false) (cs : List Char) :
    joinedWords (c :: cs) = joinedWords cs := by
  cases hc : isBlank c with
  | true =>
    rw [← trimUnderscores_joinBlanks true, joinBlanks_of_blank hc, if_pos rfl, List.nil_append,
      trimUnderscores_joinBlanks]
  | false =>
    rw [joinedWords, joinBlanks_of_not_blank hc, List.filter_cons_of_neg (by simp [h]), joinedWords]

private theorem joinedWords_concat (h : isWord c = false) (cs : List Char) :
    joinedWords (cs ++ [c]) = joinedWords cs := by
  obtain ⟨run, hrun⟩ := exists_joinBlanks_append false cs
  rw [joinedWords, hrun, List.filter_append, joinedWords]
  cases hc : isBlank c with
  | true =>
    rw [joinBlanks_of_blank hc]
    cases run with
    | true => exact congrArg trimUnderscores (List.append_nil _)
    | false => exact trimUnderscores_concat _
  | false =>
    rw [joinBlanks_of_not_blank hc, List.filter_cons_of_neg (by simp [h])]
    exact congrArg trimUnderscores (List.append_nil _)

private theorem sanitizeChars_eq (cs : List Char) : sanitizeChars cs =
    if (joinedWords cs).map Char.toLower = [] then unnamed.toList
    else (joinedWords cs).map Char.toLower := by
  have htrim : joinedWords (trim cs) = joinedWords cs :=
    apply_strip (fun _ _ hc => joinedWords_cons (isWord_of_isBlank hc) _)
      (fun _ _ hc => joinedWords_concat (isWord_of_isBlank hc) _) cs
  rw [← htrim]
  rfl

/-- A character at an end that is no word character leaves no trace. -/
theorem sanitize_cons (h : isWord c = false) (cs : List Char) :
    sanitize (String.ofList (c :: cs)) = sanitize (String.ofList cs) := by
  simp only [sanitize, String.toList_ofList, sanitizeChars_eq, joinedWords_cons h]

/-- A character that is none of a word leaves no trace at the end of a name. -/
theorem sanitize_concat (h : isWord c = false) (cs : List Char) :
    sanitize (String.ofList (cs ++ [c])) = sanitize (String.ofList cs) := by
  simp only [sanitize, String.toList_ofList, sanitizeChars_eq, joinedWords_concat h]

private theorem isWord_of_mem_joinedWords (h : c ∈ joinedWords cs) : isWord c = true :=
  (List.mem_filter.mp (mem_of_mem_trimUnderscores h)).2

private theorem toLower_ne_underscore (h : isWord c = true) (hc : c ≠ '_') : c.toLower ≠ '_' :=
  of_isWord (P := fun c => c ≠ '_' → c.toLower ≠ '_') (by decide) h hc

private theorem toLower_of_isPlain (h : isPlain c = true) : c.toLower = c :=
  of_isWord (P := fun c => isPlain c = true → c.toLower = c) (by decide) (isWord_of_isPlain h) h

/-- A name in snake case: lower case letters, digits and underscores, with no underscore at an end. -/
structure SnakeCase (s : String) : Prop extends Plain s where
  start : s.toList.head? ≠ some '_'
  stop : s.toList.getLast? ≠ some '_'

instance : DecidablePred SnakeCase := fun s =>
  decidable_of_iff (Plain s ∧ s.toList.head? ≠ some '_' ∧ s.toList.getLast? ≠ some '_')
    ⟨fun h => ⟨h.1, h.2.1, h.2.2⟩, fun h => ⟨h.toPlain, h.start, h.stop⟩⟩

private theorem snakeCase_sanitize (name : String) : SnakeCase (sanitize name) := by
  by_cases hnone : joinedWords name.toList = []
  · have hname : sanitize name = unnamed := by simp [sanitize, sanitizeChars_eq, hnone]
    rw [hname]
    decide
  · have hchars : (sanitize name).toList = (joinedWords name.toList).map Char.toLower := by
      simp [sanitize, sanitizeChars_eq, hnone]
    have hends : ∀ c ∈ joinedWords name.toList, c ≠ '_' → some c.toLower ≠ some '_' :=
      fun c hc hne => mt Option.some.inj (toLower_ne_underscore (isWord_of_mem_joinedWords hc) hne)
    refine ⟨plain_sanitize name, ?_, ?_⟩
    · rw [hchars, List.head?_map, List.head?_eq_some_head hnone]
      exact hends _ (List.head_mem hnone) (of_decide_eq_false (head_strip hnone))
    · rw [hchars, List.getLast?_map, List.getLast?_eq_some_getLast hnone]
      exact hends _ (List.getLast_mem hnone) (of_decide_eq_false (getLast_strip hnone))

private theorem joinBlanks_of_no_blanks (h : ∀ c ∈ cs, isBlank c = false) : joinBlanks false cs = cs := by
  induction cs with
  | nil => rfl
  | cons c cs ih =>
    obtain ⟨hc, hcs⟩ := List.forall_mem_cons.mp h
    rw [joinBlanks_of_not_blank hc, ih hcs]

private theorem SnakeCase.joinedWords_eq (h : SnakeCase s) : joinedWords s.toList = s.toList := by
  have hword : ∀ c ∈ s.toList, isWord c = true := fun c hc => isWord_of_isPlain (h.chars c hc)
  have hblank : ∀ c ∈ s.toList, isBlank c = false := fun c hc =>
    isBlank_of_isWord (hword c hc)
  rw [joinedWords, joinBlanks_of_no_blanks hblank, List.filter_eq_self.mpr hword]
  refine strip_eq_self (fun c hc => ?_) fun c hc => ?_
  · exact decide_eq_false fun heq => h.start (heq ▸ hc)
  · exact decide_eq_false fun heq => h.stop (heq ▸ hc)

private theorem sanitize_of_snakeCase (h : SnakeCase s) : sanitize s = s := by
  have hlower : s.toList.map Char.toLower = s.toList :=
    (List.map_congr_left fun c hc => toLower_of_isPlain (h.chars c hc)).trans (List.map_id' _)
  have hne : s.toList ≠ [] := by simpa using h.nonempty
  rw [sanitize, sanitizeChars_eq, h.joinedWords_eq, hlower, if_neg hne, String.ofList_toList]

/-- Any text is made a name in snake case, and the names in snake case are those that are kept. So a
name that was made once is kept, and the names that are made are all the names in snake case. -/
theorem sanitize_projects :
    (∀ s, SnakeCase (sanitize s)) ∧ (∀ s, SnakeCase s ↔ sanitize s = s) ∧
    (∀ s, sanitize (sanitize s) = sanitize s) ∧ Set.range sanitize = {s | SnakeCase s} := by
  have hfixed (s : String) : SnakeCase s ↔ sanitize s = s :=
    ⟨sanitize_of_snakeCase, fun h => h ▸ snakeCase_sanitize s⟩
  refine ⟨snakeCase_sanitize, hfixed, fun s => sanitize_of_snakeCase (snakeCase_sanitize s), ?_⟩
  ext s
  constructor
  · rintro ⟨name, rfl⟩
    exact snakeCase_sanitize name
  · intro h
    exact ⟨s, sanitize_of_snakeCase h⟩

example : sanitize "Café-Bar!" = "cafbar" ∧ sanitize "( Order  _2_ )" = "order__2" ∧
    sanitize "_ _" = unnamed := by
  decide

end Identifier
end SchemaSynth
