import SchemaSynth.Proofs.AnnouncedRenames
import SchemaSynth.Synthesis.Generation

/-! The conflicts of table names. There is one for every class that asks for a name which an earlier
class asks for, and where there is none the two policies generate the same. -/
namespace SchemaSynth
open TableNames
variable {d : Diagram} {c : ClassNode} {cs : List ClassNode} {name : String}

namespace Diagram

section Conflicts

private theorem conflictsFrom_eq (before cs : List ClassNode) :
    conflictsFrom before cs = (cs.zipIdx before.length).filterMap fun x =>
      conflictWith? ((before ++ cs).take x.2) x.1 := by
  induction cs generalizing before with
  | nil => rfl
  | cons c cs ih =>
    have hrest := ih (before ++ [c])
    rw [List.length_append, List.length_singleton, List.append_assoc, List.singleton_append] at hrest
    rw [conflictsFrom_cons, List.zipIdx_cons, List.filterMap_cons, List.take_left, hrest]
    cases conflictWith? before c <;> rfl

private theorem namingConflicts_eq (d : Diagram) : d.namingConflicts =
    d.classes.zipIdx.filterMap fun x => conflictWith? (d.classes.take x.2) x.1 :=
  conflictsFrom_eq [] d.classes

private theorem length_conflictsFrom (before cs : List ClassNode) :
    (conflictsFrom before cs).length +
        ((before ++ cs).map fun c => TableName.ofClassName c.name).eraseDups.length =
      cs.length + (before.map fun c => TableName.ofClassName c.name).eraseDups.length := by
  induction cs generalizing before with
  | nil => simp [conflictsFrom]
  | cons c cs ih =>
    have hrest := ih (before ++ [c])
    have hnames : (before ++ [c]).map (fun c => TableName.ofClassName c.name) =
        before.map (fun c => TableName.ofClassName c.name) ++ [TableName.ofClassName c.name] :=
      List.map_append
    rw [hnames, eraseDups_concat, List.append_assoc, List.singleton_append] at hrest
    have hasked : (before.map fun c => TableName.ofClassName c.name).contains
        (TableName.ofClassName c.name) = (conflictWith? before c).isSome := by
      rw [Bool.eq_iff_iff, conflictWith?_isSome_iff]
      simp [Asked]
    rw [hasked] at hrest
    rw [conflictsFrom_cons, List.length_append, List.length_cons]
    cases hc : conflictWith? before c with
    | none =>
      simp only [hc, Option.isSome_none, Bool.false_eq_true, if_false, List.length_append,
        List.length_singleton, Option.toList_none, List.length_nil] at hrest ⊢
      omega
    | some conflict =>
      simp only [hc, Option.isSome_some, if_true, Option.toList_some, List.length_singleton] at hrest ⊢
      omega

end Conflicts

section Policies

private theorem asked_of_assignedTo_warn (h : name ∈ (assignedTo .warn cs).map (·.2)) : Asked cs name := by
  induction cs using List.reverseRecOn with
  | nil => nomatch h
  | append_singleton cs c ih =>
    rw [assignedTo_concat, assign] at h
    split at h
    · exact asked_append.mpr (Or.inl (ih h))
    · rw [List.map_append, List.mem_append] at h
      refine asked_append.mpr (h.imp ih fun hc => ⟨c, List.mem_singleton_self c, ?_⟩)
      exact (List.mem_singleton.mp hc).symm

private theorem assignedTo_suffix_of_unasked
    (h : Follows (fun before c => ¬ Asked before (TableName.ofClassName c.name)) cs) :
    assignedTo .suffix cs = assignedTo .warn cs := by
  induction cs using List.reverseRecOn with
  | nil => rw [assignedTo, assignedTo, List.foldl_nil, List.foldl_nil]
  | append_singleton cs c ih =>
    obtain ⟨hcs, hc⟩ := follows_append.mp h
    have hunasked : ¬ Asked cs (TableName.ofClassName c.name) := by simpa using hc [] c [] rfl
    have hfree : ¬ ((assignedTo .warn cs).map (·.2)).contains (TableName.ofClassName c.name) = true :=
      fun hgiven => hunasked (asked_of_assignedTo_warn (List.contains_iff_mem.mp hgiven))
    have hname : nameFor .suffix (assignedTo .warn cs) c = nameFor .warn (assignedTo .warn cs) c := by
      simp only [nameFor, freeName]
      rw [if_neg hfree]
    rw [assignedTo_concat, assignedTo_concat, ih hcs, assign, assign, hname]

private theorem namingConflicts_eq_nil_iff : d.namingConflicts = [] ↔
    Follows (fun before c => ¬ Asked before (TableName.ofClassName c.name)) d.classes := by
  simp only [namingConflicts_eq, List.filterMap_eq_nil_iff, conflictWith?_eq_none_iff, Prod.forall,
    List.mem_zipIdx_iff_getElem?]
  constructor
  · rintro h before c after hd
    simpa [hd] using h c before.length (by simp [hd])
  · intro h c n hn
    obtain ⟨hlt, rfl⟩ := List.getElem?_eq_some_iff.mp hn
    exact h _ _ (d.classes.drop (n + 1)) (by simp)

private theorem resolve_suffix_of_no_conflicts (h : d.namingConflicts = []) :
    resolve .suffix d = resolve .warn d := by
  have hassigned := assignedTo_suffix_of_unasked (namingConflicts_eq_nil_iff.mp h)
  rw [assignedTo, assignedTo] at hassigned
  rw [resolve, resolve, hassigned, h]
  rfl

private theorem conflictMessage_ne (conflict conflict' : NamingConflict) :
    conflictMessage .warn conflict ≠ conflictMessage .suffix conflict' := by
  intro h
  have hletter := congrArg (fun s => s.toList[5]?) h
  simp [conflictMessage] at hletter

private theorem no_conflicts_of_generate_eq {banner : Bool} {stamp : Moment}
    (h : d.generate ⟨.warn, banner⟩ stamp = d.generate ⟨.suffix, banner⟩ stamp) :
    d.namingConflicts = [] := by
  have hwarnings : d.warnings .warn = d.warnings .suffix := congrArg Generation.warnings h
  rw [warnings, warnings, List.append_cancel_right_eq, List.append_cancel_right_eq, resolve, resolve]
    at hwarnings
  cases hconflicts : d.namingConflicts with
  | nil => rfl
  | cons conflict conflicts =>
    rw [hconflicts, List.map_cons, List.map_cons] at hwarnings
    exact absurd (List.cons.inj hwarnings).1 (conflictMessage_ne conflict conflict)

end Policies

/-- There is one conflict for every class that asks for a table name which a class in front of it asks
for, with the first of those, in the order of the classes. So the classes that are in no conflict are
as many as the names asked for. The policies generate the same just where there are no conflicts. -/
theorem conflicts_exact (d : Diagram) :
    d.namingConflicts = d.classes.zipIdx.filterMap
      (fun (c, i) => conflictWith? (d.classes.take i) c) ∧
    d.namingConflicts.length +
      (d.classes.map fun c => TableName.ofClassName c.name).eraseDups.length = d.classes.length ∧
    ∀ banner stamp, d.namingConflicts = [] ↔
      d.generate ⟨.warn, banner⟩ stamp = d.generate ⟨.suffix, banner⟩ stamp := by
  have hlength : d.namingConflicts.length + _ = d.classes.length := length_conflictsFrom [] d.classes
  refine ⟨namingConflicts_eq d, hlength, fun banner stamp => ?_⟩
  constructor
  · intro h
    simp only [generate, synthesize, warnings, resolve_suffix_of_no_conflicts h]
  · exact no_conflicts_of_generate_eq

/-- The third class is in conflict with the first too. -/
example : (namingConflicts
    ⟨[⟨"1", "Item", [], []⟩, ⟨"2", "item", [], []⟩, ⟨"3", " ITEM! ", [], []⟩], []⟩).map
      (fun conflict => (conflict.existing.id, conflict.later.id)) = [("1", "2"), ("1", "3")] := by
  decide

end Diagram
end SchemaSynth
