import SchemaSynth.Proofs.AssignedNames
import SchemaSynth.Proofs.Sequence
import Mathlib.Data.List.Basic

/-! The renames under the suffix policy, and the conflicts that are warned of. A conflict is between
classes that ask for one name, a rename is from a name that was given before. Where a number makes the
name that a later class is the first to ask for, that class is renamed in silence. -/
namespace SchemaSynth
open TableNames
variable {d : Diagram} {c : ClassNode} {others owners owners' cs before after : List ClassNode}
  {name : String}

/-- One of the classes asks for the table name. -/
def Asked (cs : List ClassNode) (name : String) : Prop :=
  ∃ b ∈ cs, TableName.ofClassName b.name = name

instance : Decidable (Asked cs name) :=
  inferInstanceAs (Decidable (∃ b ∈ cs, TableName.ofClassName b.name = name))

instance {names : TableNames} : Decidable (names.Given cs name) :=
  inferInstanceAs (Decidable (∃ b ∈ cs, names.get? b.id = some name))

theorem asked_append {ds : List ClassNode} : Asked (cs ++ ds) name ↔ Asked cs name ∨ Asked ds name := by
  simp only [Asked, List.mem_append, or_and_right, exists_or]

/-- The conflict of a class with the first of others that asks for the same table name. -/
def conflictWith? (others : List ClassNode) (c : ClassNode) : Option NamingConflict :=
  (others.find? fun o => TableName.ofClassName o.name == TableName.ofClassName c.name).map fun first =>
    ⟨TableName.ofClassName c.name, first, c⟩

/-- A class is in conflict exactly if its name was asked for before. -/
theorem conflictWith?_isSome_iff :
    (conflictWith? others c).isSome = true ↔ Asked others (TableName.ofClassName c.name) := by
  simp [conflictWith?, Asked]

/-- A class is in no conflict exactly if its name was not asked for before. -/
theorem conflictWith?_eq_none_iff :
    conflictWith? others c = none ↔ ¬ Asked others (TableName.ofClassName c.name) := by
  rw [← conflictWith?_isSome_iff, Option.not_isSome_iff_eq_none]

private theorem exists_conflictWith?_iff {b : ClassNode} :
    (∃ conflict, conflictWith? others b = some conflict ∧ conflict.later = c) ↔
      b = c ∧ Asked others (TableName.ofClassName c.name) := by
  have hlater (conflict : NamingConflict) (h : conflictWith? others b = some conflict) :
      conflict.later = b := by
    obtain ⟨first, _, rfl⟩ := Option.map_eq_some_iff.mp h
    rfl
  constructor
  · rintro ⟨conflict, hconflict, rfl⟩
    rw [hlater conflict hconflict, ← conflictWith?_isSome_iff]
    exact ⟨rfl, Option.isSome_of_eq_some hconflict⟩
  · rintro ⟨rfl, hasked⟩
    obtain ⟨conflict, hconflict⟩ := Option.isSome_iff_exists.mp (conflictWith?_isSome_iff.mpr hasked)
    exact ⟨conflict, hconflict, hlater conflict hconflict⟩

private theorem conflictWith?_append (others more : List ClassNode) (c : ClassNode) :
    conflictWith? (others ++ more) c = (conflictWith? others c).or (conflictWith? more c) := by
  rw [conflictWith?, List.find?_append, Option.map_or]
  rfl

namespace Diagram

/-- Under the suffix policy the class has another table name than it asks for. -/
def TableRenamed (d : Diagram) (c : ClassNode) : Prop :=
  (resolve .suffix d).get? c.id ≠ some (TableName.ofClassName c.name)

/-- It is warned of a conflict in which the class is the later one, said to be renamed. -/
def RenameAnnounced (d : Diagram) (c : ClassNode) : Prop :=
  ∃ conflict ∈ d.namingConflicts, conflict.later = c ∧
    conflictMessage .suffix conflict ∈ (resolve .suffix d).warnings

instance : DecidablePred d.TableRenamed := fun c => inferInstanceAs
  (Decidable ((resolve .suffix d).get? c.id ≠ some (TableName.ofClassName c.name)))

instance : DecidablePred d.RenameAnnounced := fun c => inferInstanceAs
  (Decidable (∃ conflict ∈ d.namingConflicts, conflict.later = c ∧
    conflictMessage .suffix conflict ∈ (resolve .suffix d).warnings))

section Conflicts

private theorem conflictsFrom_step (owners cs : List ClassNode) (c : ClassNode) :
    conflictsFrom owners (c :: cs) = match conflictWith? owners c with
      | some conflict => conflict :: conflictsFrom owners cs
      | none => conflictsFrom (owners ++ [c]) cs := by
  rw [conflictsFrom, conflictWith?]
  cases owners.find? _ <;> rfl

private theorem conflictsFrom_congr (h : ∀ c, conflictWith? owners c = conflictWith? owners' c) :
    conflictsFrom owners cs = conflictsFrom owners' cs := by
  induction cs generalizing owners owners' with
  | nil => rfl
  | cons c cs ih =>
    have hmore (b : ClassNode) :
        conflictWith? (owners ++ [c]) b = conflictWith? (owners' ++ [c]) b := by
      rw [conflictWith?_append, conflictWith?_append, h]
    rw [conflictsFrom_step, conflictsFrom_step, h, ih h, ih hmore]

/-- A class in conflict may be counted as an owner too, as it is not the first to ask for its name. -/
theorem conflictsFrom_cons (owners cs : List ClassNode) (c : ClassNode) :
    conflictsFrom owners (c :: cs) =
      (conflictWith? owners c).toList ++ conflictsFrom (owners ++ [c]) cs := by
  rw [conflictsFrom_step]
  cases hc : conflictWith? owners c with
  | none => rfl
  | some conflict =>
    have howned (b : ClassNode) : conflictWith? owners b = conflictWith? (owners ++ [c]) b := by
      rw [conflictWith?_append]
      by_cases hname : TableName.ofClassName c.name = TableName.ofClassName b.name
      · have hb : (conflictWith? owners b).isSome = true := by
          rw [conflictWith?_isSome_iff, ← hname, ← conflictWith?_isSome_iff, hc, Option.isSome_some]
        obtain ⟨first, hfirst⟩ := Option.isSome_iff_exists.mp hb
        rw [hfirst, Option.some_or]
      · have hnone : conflictWith? [c] b = none := by simpa [conflictWith?] using hname
        rw [hnone, Option.or_none]
    rw [conflictsFrom_congr howned]
    rfl

private theorem exists_conflictsFrom_iff : (∃ conflict ∈ conflictsFrom owners cs, conflict.later = c) ↔
    ∃ before after, cs = before ++ c :: after ∧
      Asked (owners ++ before) (TableName.ofClassName c.name) := by
  induction cs generalizing owners with
  | nil => simp [conflictsFrom]
  | cons b cs ih =>
    simp only [exists_split_cons, conflictsFrom_cons, List.mem_append, Option.mem_toList, or_and_right,
      exists_or, exists_conflictWith?_iff, ih, List.append_assoc, List.singleton_append, List.append_nil]

private theorem eq_before_of_split {before' after' : List ClassNode} (distinct : d.ids.Nodup)
    (hd : d.classes = before ++ c :: after) (hd' : d.classes = before' ++ c :: after') :
    before' = before := by
  have hnodup : d.classes.Nodup := List.Nodup.of_map _ distinct
  rw [hd, List.nodup_append, List.nodup_cons] at hnodup
  obtain ⟨_, ⟨hafter, _⟩, hbefore⟩ := hnodup
  have hnot : c ∉ before := fun hc => hbefore c hc c List.mem_cons_self rfl
  exact ((List.append_cons_inj_of_notMem hnot hafter).mp (hd.symm.trans hd')).1.symm

private theorem renameAnnounced_iff (distinct : d.ids.Nodup) (hd : d.classes = before ++ c :: after) :
    d.RenameAnnounced c ↔ Asked before (TableName.ofClassName c.name) := by
  have hwarned : d.RenameAnnounced c ↔ ∃ conflict ∈ d.namingConflicts, conflict.later = c := by
    refine exists_congr fun conflict => and_congr_right fun hconflict => and_iff_left ?_
    exact List.mem_map_of_mem hconflict
  rw [hwarned, namingConflicts, exists_conflictsFrom_iff]
  constructor
  · rintro ⟨before', after', hd', hasked⟩
    rwa [eq_before_of_split distinct hd hd'] at hasked
  · intro hasked
    exact ⟨before, after, hd, hasked⟩

end Conflicts

section Renames

/-- With distinct ids, no class in front of another one has the same id. -/
theorem ids_ne_of_split (distinct : d.ids.Nodup) (hd : d.classes = before ++ c :: after) :
    ∀ b ∈ before, b.id ≠ c.id := by
  rw [ids, hd, List.map_append, List.nodup_append] at distinct
  intro b hb
  exact distinct.2.2 b.id (List.mem_map_of_mem hb) c.id (List.mem_map_of_mem List.mem_cons_self)

private theorem tableRenamed_iff (distinct : d.ids.Nodup) (hd : d.classes = before ++ c :: after) :
    d.TableRenamed c ↔ (resolve .suffix d).Given before (TableName.ofClassName c.name) := by
  obtain ⟨name, hname, hchosen⟩ := chosen_of_first hd (ids_ne_of_split distinct hd)
  rw [TableRenamed, hname, ne_eq, Option.some.injEq]
  cases hchosen with
  | base free => simpa using free
  | numbered taken _ _ free =>
    refine iff_of_true (fun heq => ?_) taken
    rw [heq] at free
    exact free taken

private theorem given_of_asked (distinct : d.ids.Nodup) (hd : d.classes = before ++ after)
    (h : Asked before name) : (resolve .suffix d).Given before name := by
  obtain ⟨b, hb, rfl⟩ := h
  obtain ⟨start, rest, rfl⟩ := List.append_of_mem hb
  have hsplit : d.classes = start ++ b :: (rest ++ after) := by simpa using hd
  by_cases hrenamed : d.TableRenamed b
  · obtain ⟨a, ha, hname⟩ := (tableRenamed_iff distinct hsplit).mp hrenamed
    exact ⟨a, List.mem_append_left _ ha, hname⟩
  · exact ⟨b, hb, not_not.mp hrenamed⟩

end Renames

/-- A class whose rename is announced is renamed. All renames are announced unless a class is the
first to ask for a name that an earlier class was given for another. -/
theorem renames_announced_iff (d : Diagram) (distinct : d.ids.Nodup) :
    (∀ c ∈ d.classes, d.RenameAnnounced c → d.TableRenamed c) ∧
    ((∀ c ∈ d.classes, d.TableRenamed c ↔ d.RenameAnnounced c) ↔
      Follows (fun before c =>
        (resolve .suffix d).Given before (TableName.ofClassName c.name) →
          Asked before (TableName.ofClassName c.name)) d.classes) := by
  have hright (c : ClassNode) (hc : c ∈ d.classes) (h : d.RenameAnnounced c) : d.TableRenamed c := by
    obtain ⟨before, after, hd⟩ := List.append_of_mem hc
    exact (tableRenamed_iff distinct hd).mpr
      (given_of_asked distinct hd ((renameAnnounced_iff distinct hd).mp h))
  refine ⟨hright, ?_⟩
  constructor
  · intro h before c after hd hgiven
    have hc : c ∈ d.classes := by simp [hd]
    exact (renameAnnounced_iff distinct hd).mp ((h c hc).mp ((tableRenamed_iff distinct hd).mpr hgiven))
  · intro h c hc
    refine ⟨fun hrenamed => ?_, hright c hc⟩
    obtain ⟨before, after, hd⟩ := List.append_of_mem hc
    exact (renameAnnounced_iff distinct hd).mpr
      (h before c after hd ((tableRenamed_iff distinct hd).mp hrenamed))

/-- The number goes past the name that a class has by hand, and the one rename is announced. -/
theorem numberedByHand_renames_announced :
    numberedByHand.ids.Nodup ∧ (∃ c ∈ numberedByHand.classes, numberedByHand.TableRenamed c) ∧
      ∀ c ∈ numberedByHand.classes, numberedByHand.TableRenamed c ↔ numberedByHand.RenameAnnounced c := by
  have distinct : numberedByHand.ids.Nodup := by decide
  exact ⟨distinct, by decide, (renames_announced_iff numberedByHand distinct).2.mpr (by decide)⟩

/-- A class that is numbered by hand, behind two that ask for one name. -/
def numberedBehind : Diagram where
  classes := [⟨"1", "item", [], []⟩, ⟨"2", "Item", [], []⟩, ⟨"3", "item_2", [], []⟩]
  relationships := []

/-- The second class is given the name of the third, which is renamed in turn without a word. -/
theorem numberedBehind_renamed_in_silence : numberedBehind.ids.Nodup ∧
    ¬ ∀ c ∈ numberedBehind.classes,
      numberedBehind.TableRenamed c ↔ numberedBehind.RenameAnnounced c := by
  decide

end Diagram
end SchemaSynth
