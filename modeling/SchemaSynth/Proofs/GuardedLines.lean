import SchemaSynth.Proofs.Identifiers
import SchemaSynth.Schema.Statement
import Mathlib.Data.List.Infix

/-! Lines of a script, of which some are only allowed behind a guard. -/
namespace SchemaSynth.Script
open Identifier

def guards : List (String × String) :=
  [("CREATE TABLE", " IF NOT EXISTS"), ("CREATE INDEX", " IF NOT EXISTS"),
    ("ADD COLUMN", " IF NOT EXISTS"), ("DROP CONSTRAINT", " IF EXISTS")]

def opening : List Char := "DO $$".toList

def closing : List Char := "END $$;".toList

/-- Wherever the keyword stands in the line, the guard stands behind it. -/
def Behind (keyword guard line : List Char) : Prop :=
  ∀ rest, rest <:+ line → keyword <+: rest → keyword ++ guard <+: rest

/-- The last mark before a place opens a block, and the first one behind it closes the block. -/
structure Enclosed (before after : List (List Char)) : Prop where
  opened : ∃ outside inside, before = outside ++ opening :: inside ∧
    ∀ line ∈ inside, line ≠ opening ∧ line ≠ closing
  closed : ∃ inside outside, after = inside ++ closing :: outside ∧
    ∀ line ∈ inside, line ≠ opening ∧ line ≠ closing

/-- Every statement in the lines is guarded: by what stands behind its keyword, or, if it adds or drops
a constraint, by the block that it is in. Blocks are opened and closed in turn. -/
structure Guarded (lines : List (List Char)) : Prop where
  guard : ∀ line ∈ lines, ∀ g ∈ guards, Behind g.1.toList g.2.toList line
  turns : ∃ n, lines.filter (fun line => line = opening ∨ line = closing) =
    (List.replicate n [opening, closing]).flatten
  block : ∀ before line after, lines = before ++ line :: after → "ALTER TABLE".toList <:+: line →
    "CONSTRAINT".toList <:+: line → Enclosed before after

section Lines
variable {keyword guard line : List Char} {lines lines' before after : List (List Char)}

private theorem behind_iff_tails :
    Behind keyword guard line ↔ ∀ rest ∈ line.tails, keyword <+: rest → keyword ++ guard <+: rest := by
  simp only [Behind, List.mem_tails]

instance : Decidable (Behind keyword guard line) :=
  decidable_of_iff _ behind_iff_tails.symm

example : ¬ Behind "ADD COLUMN".toList " IF NOT EXISTS".toList
    "ALTER TABLE a ADD COLUMN IF EXISTS b text;".toList := by decide

private theorem Enclosed.extend (h : Enclosed before after) (outer outer' : List (List Char)) :
    Enclosed (outer ++ before) (after ++ outer') := by
  obtain ⟨⟨outside, inside, rfl, hinside⟩, ⟨inside', outside', rfl, hinside'⟩⟩ := h
  exact ⟨⟨outer ++ outside, inside, by simp, hinside⟩,
    ⟨inside', outside' ++ outer', by simp, hinside'⟩⟩

theorem guarded_nil : Guarded [] :=
  ⟨List.forall_mem_nil _, ⟨0, rfl⟩, fun before _ _ h => by simp at h⟩

/-- Guarded lines can be put behind one another. -/
theorem Guarded.append (h : Guarded lines) (h' : Guarded lines') : Guarded (lines ++ lines') := by
  constructor
  case guard => exact List.forall_mem_append.mpr ⟨h.guard, h'.guard⟩
  case turns =>
    obtain ⟨n, hn⟩ := h.turns
    obtain ⟨m, hm⟩ := h'.turns
    refine ⟨n + m, ?_⟩
    rw [List.filter_append, hn, hm, ← List.flatten_append, List.replicate_append_replicate]
  case block =>
    intro before line after hsplit halter hconstraint
    rcases List.append_eq_append_iff.mp hsplit with ⟨between, rfl, hbefore⟩ | ⟨between, rfl, hafter⟩
    · have henclosed := h'.block between line after hbefore halter hconstraint
      simpa using henclosed.extend lines []
    · cases between with
      | nil =>
        have henclosed := h'.block [] line after hafter.symm halter hconstraint
        simpa using henclosed.extend before []
      | cons _ between =>
        obtain ⟨rfl, rfl⟩ := List.cons.inj hafter
        exact (h.block before line between rfl halter hconstraint).extend [] lines'

end Lines

/-- A character that no keyword and no mark has. It may stand in a line, and sets apart what stands
around it. -/
def isBreak (c : Char) : Bool :=
  !(c.isUpper || c = ' ' || c = '\n' || c = '$')

/-- Lines without a break, and so all lines, are told by what stands between breaks. -/
structure Breakable (P : List Char → Prop) : Prop where
  nil : P []
  join : ∀ {a b c}, isBreak c = true → P a → P b → P (a ++ c :: b)

/-- A line inside of a block, in which all keywords have their guards. -/
structure Tame (line : List Char) : Prop where
  guard : ∀ g ∈ guards, Behind g.1.toList g.2.toList line
  feed : '\n' ∉ line
  dollar : '$' ∉ line

def Lacks (word : String) (line : List Char) : Prop :=
  Tame line ∧ ¬ word.toList <:+: line

section Breaks
variable {a b keyword guard rest line : List Char} {c : Char} {word : String}

instance : DecidablePred Tame := fun line =>
  decidable_of_iff ((∀ g ∈ guards, Behind g.1.toList g.2.toList line) ∧ '\n' ∉ line ∧ '$' ∉ line)
    ⟨fun h => ⟨h.1, h.2.1, h.2.2⟩, fun h => ⟨h.guard, h.feed, h.dollar⟩⟩

instance : DecidablePred (Lacks word) := fun line =>
  inferInstanceAs (Decidable (Tame line ∧ ¬ word.toList <:+: line))

private theorem prefix_of_join (hkeyword : keyword.all (!isBreak ·) = true)
    (hc : isBreak c = true) (hrest : rest <:+ a ++ c :: b) (h : keyword <+: rest) :
    rest <:+ b ∨ ∃ r, r <:+ a ∧ keyword <+: r ∧ rest = r ++ c :: b := by
  have hnot : c ∉ keyword := fun hmem => by simpa [hc] using List.all_eq_true.mp hkeyword c hmem
  have hinside {r : List Char} (hr : r <:+ a) (heq : rest = r ++ c :: b) :
      ∃ r, r <:+ a ∧ keyword <+: r ∧ rest = r ++ c :: b := by
    obtain ⟨t, ht⟩ := heq ▸ h
    rcases List.append_eq_append_iff.mp ht with ⟨m, rfl, _⟩ | ⟨m, hm, hcons⟩
    · exact ⟨_, hr, List.prefix_append _ _, heq⟩
    · cases m with
      | nil => exact ⟨r, hr, by simp [hm], heq⟩
      | cons x m =>
        obtain ⟨rfl, _⟩ := List.cons.inj hcons
        exact absurd (by simp [hm]) hnot
  obtain ⟨t, ht⟩ := hrest
  rcases List.append_eq_append_iff.mp ht with ⟨m, rfl, hm⟩ | ⟨m, rfl, hm⟩
  · exact Or.inr (hinside (List.suffix_append _ _) hm)
  · cases m with
    | nil => exact Or.inr (hinside List.nil_suffix hm.symm)
    | cons x m =>
      obtain ⟨_, rfl⟩ := List.cons.inj hm
      exact Or.inl (List.suffix_append _ _)

private theorem breakable_behind (hkeyword : keyword.all (!isBreak ·) = true) (hne : keyword ≠ []) :
    Breakable (Behind keyword guard) where
  nil := by
    intro rest hrest h
    rw [List.suffix_nil.mp hrest] at h
    exact absurd (List.prefix_nil.mp h) hne
  join := by
    intro a b c hc ha hb rest hrest h
    rcases prefix_of_join hkeyword hc hrest h with hrest | ⟨r, hr, hprefix, rfl⟩
    · exact hb rest hrest h
    · exact (ha r hr hprefix).trans (List.prefix_append _ _)

private theorem breakable_absent (hkeyword : keyword.all (!isBreak ·) = true) (hne : keyword ≠ []) :
    Breakable (¬ keyword <:+: ·) where
  nil := fun h => hne (List.infix_nil.mp h)
  join := by
    intro a b c hc ha hb h
    obtain ⟨rest, hprefix, hrest⟩ := List.infix_iff_prefix_suffix.mp h
    rcases prefix_of_join hkeyword hc hrest hprefix with hrest | ⟨r, hr, hprefix, _⟩
    · exact hb (List.infix_iff_prefix_suffix.mpr ⟨rest, hprefix, hrest⟩)
    · exact ha (List.infix_iff_prefix_suffix.mpr ⟨r, hprefix, hr⟩)

private theorem Breakable.and {P Q : List Char → Prop} (hP : Breakable P) (hQ : Breakable Q) :
    Breakable fun line => P line ∧ Q line where
  nil := ⟨hP.nil, hQ.nil⟩
  join := fun hc ha hb => ⟨hP.join hc ha.1 hb.1, hQ.join hc ha.2 hb.2⟩

/-- Whether a line is tame is told by what stands between breaks. -/
theorem breakable_tame : Breakable Tame where
  nil := by decide
  join := by
    intro a b c hc ha hb
    have hguard : ∀ g ∈ guards, Breakable (Behind g.1.toList g.2.toList) := by
      intro g hg
      have hkeywords : ∀ g ∈ guards, g.1.toList.all (!isBreak ·) = true ∧ g.1.toList ≠ [] := by
        decide
      exact breakable_behind (hkeywords g hg).1 (hkeywords g hg).2
    have hother {x : Char} (hx : isBreak x = false) (hxa : x ∉ a) (hxb : x ∉ b) : x ∉ a ++ c :: b := by
      have hne : x ≠ c := by
        rintro rfl
        simp [hx] at hc
      simp [hxa, hxb, hne]
    exact ⟨fun g hg => (hguard g hg).join hc (ha.guard g hg) (hb.guard g hg),
      hother (by decide) ha.feed hb.feed, hother (by decide) ha.dollar hb.dollar⟩

/-- Whether a tame line alters a table is told by what stands between breaks. -/
theorem breakable_lacks_alter : Breakable (Lacks "ALTER TABLE") :=
  breakable_tame.and (breakable_absent (by decide) (by decide))

/-- Whether a tame line has a constraint is told by what stands between breaks. -/
theorem breakable_lacks_constraint : Breakable (Lacks "CONSTRAINT") :=
  breakable_tame.and (breakable_absent (by decide) (by decide))

end Breaks

def Firm (P : List Char → Prop) (x : List Char) : Prop :=
  ∀ s t, P s → P t → P (s ++ (x ++ t))

private theorem isBreak_of_isPlain {c : Char} (h : isPlain c = true) : isBreak c = true :=
  of_isWord (P := fun c => isPlain c = true → isBreak c = true) (by decide) (isWord_of_isPlain h) h

namespace Breakable
variable {P : List Char → Prop} {x s t : List Char} {word : String} {names : List String} {c : Char}

/-- A break may stand at the end. -/
theorem snoc (hP : Breakable P) (hc : isBreak c = true) (hs : P s) : P (s ++ [c]) :=
  hP.join hc hs hP.nil

private theorem firm_of_breaks (hP : Breakable P) (hne : x ≠ []) (hx : ∀ c ∈ x, isBreak c = true) :
    Firm P x := by
  intro s t hs ht
  induction x generalizing s with
  | nil => exact absurd rfl hne
  | cons c x ih =>
    obtain ⟨hc, hx⟩ := List.forall_mem_cons.mp hx
    cases x with
    | nil => exact hP.join hc hs ht
    | cons c' x => exact hP.join hc hs (ih (List.cons_ne_nil _ _) hx [] hP.nil)

/-- A plain word can be put anywhere. -/
theorem firm_plain (hP : Breakable P) (h : Plain word) : Firm P word.toList :=
  hP.firm_of_breaks (by simpa using h.nonempty) fun c hc => isBreak_of_isPlain (h.chars c hc)

/-- What can be put anywhere can stand alone. -/
theorem of_firm (hP : Breakable P) (h : Firm P x) : P x := by
  simpa using h [] [] hP.nil hP.nil

/-- Between quotes anything is firm that can stand in a line. -/
theorem firm_quoted (hP : Breakable P) (hx : P x) : Firm P ("'".toList ++ (x ++ "'".toList)) := by
  intro s t hs ht
  have hquote : isBreak '\'' = true := by decide
  have hrest : P (x ++ '\'' :: t) := hP.join hquote hx ht
  simpa using hP.join hquote hs hrest

private theorem firm_commas (hP : Breakable P) (hspace : P [' '])
    (h : ∀ x ∈ word :: names, Firm P x.toList) : Firm P (Statement.commas (word :: names)).toList := by
  intro s t hs ht
  induction names generalizing s word with
  | nil =>
    rw [Statement.commas, String.intercalate_singleton]
    exact h word List.mem_cons_self s t hs ht
  | cons word' names ih =>
    obtain ⟨hword, hnames⟩ := List.forall_mem_cons.mp h
    have hcomma : isBreak ',' = true := by decide
    have hrest : P (',' :: ([' '] ++ ((Statement.commas (word' :: names)).toList ++ t))) :=
      hP.join hcomma hP.nil (ih hnames [' '] hspace)
    rw [Statement.commas, String.intercalate_cons_of_ne_nil (List.cons_ne_nil _ _)]
    simpa [Statement.commas] using hword s _ hs hrest

/-- Firm texts with commas between them, if there are any, can stand between two texts that can stand
next to each other. -/
theorem commas (hP : Breakable P) (hspace : P [' ']) (h : ∀ x ∈ names, Firm P x.toList) (hs : P s)
    (ht : P t) (hst : P (s ++ t)) : P (s ++ ((Statement.commas names).toList ++ t)) := by
  cases names with
  | nil => exact hst
  | cons word names => exact hP.firm_commas hspace h s t hs ht

end Breakable

section Blocks
variable {line : List Char} {lines : List (List Char)}

/-- A line that may stand outside of blocks: it does not alter a table, or is not about a constraint. -/
def Loose (line : List Char) : Prop :=
  Lacks "ALTER TABLE" line ∨ Lacks "CONSTRAINT" line

/-- A line that needs no block is tame. -/
theorem Loose.tame (h : Loose line) : Tame line :=
  h.elim (·.1) (·.1)

/-- A break may stand behind a line that needs no block. -/
theorem Loose.snoc {c : Char} (h : Loose line) (hc : isBreak c = true) : Loose (line ++ [c]) :=
  h.imp (breakable_lacks_alter.snoc hc) (breakable_lacks_constraint.snoc hc)

private theorem Tame.not_mark (h : Tame line) : line ≠ opening ∧ line ≠ closing := by
  constructor <;> rintro rfl <;> exact h.dollar (by decide)

private theorem filter_marks (h : ∀ line ∈ lines, Tame line) :
    lines.filter (fun line => line = opening ∨ line = closing) = [] := by
  rw [List.filter_eq_nil_iff]
  intro line hline
  simpa using (h line hline).not_mark

/-- Lines that need no block are guarded. -/
theorem guarded_of_loose (h : ∀ line ∈ lines, Loose line) : Guarded lines where
  guard := fun line hline => (h line hline).tame.guard
  turns := ⟨0, filter_marks fun line hline => (h line hline).tame⟩
  block := by
    rintro before line after rfl halter hconstraint
    rcases h line (by simp) with ⟨_, hlacks⟩ | ⟨_, hlacks⟩
    · exact absurd halter hlacks
    · exact absurd hconstraint hlacks

/-- A block guards all of its lines. -/
theorem guarded_block (h : ∀ line ∈ lines, Tame line) :
    Guarded (opening :: (lines ++ [closing])) where
  guard := by
    have hopening : ∀ g ∈ guards, Behind g.1.toList g.2.toList opening := by decide
    have hclosing : ∀ g ∈ guards, Behind g.1.toList g.2.toList closing := by decide
    exact List.forall_mem_cons.mpr ⟨hopening, List.forall_mem_append.mpr
      ⟨fun line hline => (h line hline).guard, List.forall_mem_singleton.mpr hclosing⟩⟩
  turns := by
    refine ⟨1, ?_⟩
    rw [List.filter_cons_of_pos (by simp), List.filter_append, filter_marks h]
    rfl
  block := by
    intro before line after hsplit halter _
    have hopening : ¬ "ALTER TABLE".toList <:+: opening := by decide
    have hclosing : ¬ "ALTER TABLE".toList <:+: closing := by decide
    cases before with
    | nil =>
      obtain ⟨rfl, _⟩ := List.cons.inj hsplit
      exact absurd halter hopening
    | cons mark inside =>
      obtain ⟨rfl, hlines⟩ := List.cons.inj hsplit
      rcases List.eq_nil_or_concat' after with rfl | ⟨inside', mark, rfl⟩
      · obtain ⟨_, hmark⟩ := List.append_inj' hlines rfl
        obtain rfl := List.singleton_inj.mp hmark
        exact absurd halter hclosing
      · replace hlines : lines ++ [closing] = (inside ++ line :: inside') ++ [mark] := by
          simpa using hlines
        obtain ⟨rfl, hmark⟩ := List.append_inj' hlines rfl
        obtain rfl := List.singleton_inj.mp hmark
        exact ⟨⟨[], inside, rfl, fun line hline => (h line (by simp [hline])).not_mark⟩,
          ⟨inside', [], rfl, fun line hline => (h line (by simp [hline])).not_mark⟩⟩

end Blocks

end SchemaSynth.Script
