import SchemaSynth.Proofs.AssignedNames
import SchemaSynth.Proofs.TableAccounts

/-! Classes with one id. The first of them stands for all, in the names, in the tables, in the search
for join classes and in the rules, so that those behind it could as well be left out. -/
namespace SchemaSynth
open TableNames
variable {d : Diagram} {policy : CollisionPolicy}

private theorem TableNames.assignedTo_firstsBy (policy : CollisionPolicy) (cs : List ClassNode) :
    assignedTo policy (firstsBy (·.id) cs) = assignedTo policy cs := by
  refine foldl_firstsBy (fun before c hc => ?_) cs
  have hnamed : ((assignedTo policy before).lookup c.id).isSome = true :=
    (get?_resolve_isSome policy ⟨before, []⟩ c.id).mpr hc
  exact if_pos hnamed

namespace Strategy
variable {names names' : TableNames}

private theorem choose_congr (h : names.assigned = names'.assigned) (classification : Classification) :
    choose names classification = choose names' classification := by
  obtain ⟨assigned, _⟩ := names
  obtain ⟨_, _⟩ := names'
  cases h
  rfl

end Strategy

namespace Diagram

private theorem applyFrom_congr {names names' : TableNames} (h : names.assigned = names'.assigned)
    (classification : Classification) (p : Progress) (es : List (RelationshipEdge × Nat)) :
    applyFrom names classification p es = applyFrom names' classification p es := by
  induction es generalizing p with
  | nil => rfl
  | cons x es ih =>
    simp only [applyFrom, Strategy.choose_congr h, ih]

/-- The diagram without the classes whose id an earlier class has. -/
def withoutRepeats (d : Diagram) : Diagram :=
  { d with classes := firstsBy (·.id) d.classes }

private theorem ids_withoutRepeats (d : Diagram) : d.withoutRepeats.ids = d.ids.eraseDups :=
  map_firstsBy _ _

private theorem firstClasses_withoutRepeats (d : Diagram) : d.withoutRepeats.firstClasses = d.firstClasses := by
  rw [firstClasses_eq, firstClasses_eq]
  exact firstsBy_firstsBy _ _

private theorem classify_withoutRepeats (d : Diagram) : d.withoutRepeats.classify = d.classify := by
  have hids (id : String) : d.withoutRepeats.ids.contains id = d.ids.contains id := by
    rw [ids_withoutRepeats, Bool.eq_iff_iff]
    simp
  have hqualifies : d.withoutRepeats.qualifies = d.qualifies := by
    funext e
    rw [qualifies, qualifies, hids, hids]
  simp only [classify, pairAt?, links, candidates, hqualifies]
  rfl

private theorem assigned_withoutRepeats (d : Diagram) (policy : CollisionPolicy) :
    (resolve policy d.withoutRepeats).assigned = (resolve policy d).assigned :=
  assignedTo_firstsBy policy d.classes

/-- Of several classes with one id the first wins everywhere: without the others the tables, the
names, the join classes and the applications are the same. -/
theorem repeated_ids_change_nothing (d : Diagram) (policy : CollisionPolicy) :
    d.withoutRepeats.tableBlocks (.resolve policy d.withoutRepeats) d.withoutRepeats.classify =
      d.tableBlocks (.resolve policy d) d.classify ∧
    (∀ id, (resolve policy d.withoutRepeats).get? id = (resolve policy d).get? id) ∧
    d.withoutRepeats.classify = d.classify ∧
    d.withoutRepeats.applications (.resolve policy d.withoutRepeats) d.withoutRepeats.classify =
      d.applications (.resolve policy d) d.classify := by
  have hnames := assigned_withoutRepeats d policy
  have hget (id : String) :
      (resolve policy d.withoutRepeats).get? id = (resolve policy d).get? id := by
    rw [get?, get?, hnames]
  refine ⟨?_, hget, classify_withoutRepeats d, ?_⟩
  · have hblock : tableBlock (.resolve policy d.withoutRepeats) = tableBlock (.resolve policy d) := by
      funext c
      rw [tableBlock, tableBlock, hget]
    rw [tableBlocks, tableBlocks, hblock, classify_withoutRepeats, firstClasses_withoutRepeats]
  · rw [classify_withoutRepeats]
    exact applyFrom_congr hnames _ _ _

/-- The second class is none of those that ask for the name of the third. -/
example : (resolve .suffix
    ⟨[⟨"1", "A", [], []⟩, ⟨"1", "B", [], []⟩, ⟨"2", "B", [], []⟩], []⟩).get? "2" = some "b" := by
  decide

end Diagram
end SchemaSynth
