import SchemaSynth.Proofs.CompositeKeys
import SchemaSynth.Proofs.Execution

/-! A script runs through on an empty database, and changes nothing where it was run before. -/
namespace SchemaSynth

namespace PartKeys
variable {keys : PartKeys}

private theorem keyOf_prefix_extended (keys : PartKeys) (whole part : String) :
    keys.keyOf part <+: keys.extended whole part := by
  simp only [extended]
  split
  · exact List.prefix_refl _
  · exact List.prefix_append _ _

private theorem keyOf_prefix_keysAfter (keys : PartKeys) (s : Strategy) (part : String) :
    keys.keyOf part <+: (s.keysAfter keys).keyOf part := by
  cases s with
  | composition whole part' =>
    rw [keyOf_keysAfter_composition]
    split
    · rename_i hp
      exact hp ▸ keyOf_prefix_extended keys whole part
    · exact List.prefix_refl _
  | _ => exact List.prefix_refl _

end PartKeys

namespace Strategy
open Diagram Statement
variable {d : Diagram} {policy : CollisionPolicy} {e f : RelationshipEdge} {i : Nat} {s : Strategy}
  {source target table : String} {keys : PartKeys} {key columns : List String} {st : Statement}

private theorem eq_keyOf_of_replacePrimaryKey
    (h : .replacePrimaryKey table columns ∈ (s.apply keys e i).statements) :
    columns = (s.keysAfter keys).keyOf table := by
  obtain ⟨whole, rfl, rfl⟩ := mem_replacePrimaryKey h
  rw [PartKeys.keyOf_keysAfter_composition, if_pos rfl, partKey]

private theorem SuitsKind.altered (h : SuitsKind e source target s) :
    ∀ table ∈ (s.statements f key).filterMap altered?, table = source ∨ table = target := by
  cases h <;>
    simp [statements, compositionStatements, generalizationStatements, referenceOn, altered?,
      ForeignKey.between, Index.named]

/-- The rules alter class tables only. -/
theorem Suits.altered (h : Suits d (.resolve policy d) i e s) (hst : st ∈ s.statements f key)
    (ht : st.altered? = some table) : d.HasClassTable policy table := by
  have hmem : table ∈ (s.statements f key).filterMap altered? := List.mem_filterMap.mpr ⟨st, hst, ht⟩
  cases h with
  | skipUnknown => cases hmem
  | skipJoinClass => cases hmem
  | recursive => cases hmem
  | @selfReference source _ attached _ single =>
    obtain rfl : source = table := by
      simpa [statements, selfReferenceStatements, altered?, ForeignKey.between, ForeignKey.named]
        using hmem
    exact (attached.hasClassTable single).1
  | ofKind attached _ single kind =>
    rcases kind.altered table hmem with rfl | rfl
    · exact (attached.hasClassTable single).1
    · exact (attached.hasClassTable single).2

end Strategy

namespace Diagram
open Strategy Statement
variable {names : TableNames} {classification : Classification} {keys : PartKeys}
  {es : List (RelationshipEdge × Nat)} {table : String} {columns : List String} {st : Statement}

private theorem keyOf_prefix_of_mem_carryOut
    (h : .replacePrimaryKey table columns ∈
      (carryOut names classification keys es).flatMap (·.statements)) :
    keys.keyOf table <+: columns := by
  induction es generalizing keys with
  | nil => cases h
  | cons x es ih =>
    have hafter := keys.keyOf_prefix_keysAfter (choose names classification x.1 x.2) table
    rcases List.mem_append.mp h with h | h
    · rwa [eq_keyOf_of_replacePrimaryKey h]
    · exact hafter.trans (ih h)

private theorem keys_grow_carryOut (names : TableNames) (classification : Classification)
    (keys : PartKeys) (es : List (RelationshipEdge × Nat)) :
    ((carryOut names classification keys es).flatMap (·.statements)).Pairwise KeyGrows := by
  induction es generalizing keys with
  | nil => exact List.Pairwise.nil
  | cons x es ih =>
    rw [carryOut, List.flatMap_cons, List.pairwise_append]
    refine ⟨?_, ih _, ?_⟩
    · apply List.pairwise_of_forall_mem_list
      rintro _ hs _ hs' table columns columns' rfl rfl
      obtain rfl : columns = columns' :=
        (eq_keyOf_of_replacePrimaryKey hs).trans (eq_keyOf_of_replacePrimaryKey hs').symm
      exact List.prefix_refl _
    · rintro _ hs _ hs' table columns columns' rfl rfl
      rw [eq_keyOf_of_replacePrimaryKey hs]
      exact keyOf_prefix_of_mem_carryOut hs'

private theorem not_replacePrimaryKey_mem_tableBlocks {policy : CollisionPolicy} (d : Diagram) :
    .replacePrimaryKey table columns ∉ (d.tableBlocks (.resolve policy d) d.classify).flatten := by
  intro h
  obtain ⟨_, _, _, _, _, h | h⟩ := mem_tableBlocks.mp h <;> cases h

/-- Of two replacements of the key of one table the later starts with the earlier. -/
theorem keys_grow (d : Diagram) (policy : CollisionPolicy) :
    (d.statements policy).Pairwise KeyGrows := by
  refine List.pairwise_append.mpr ⟨?_, ?_, ?_⟩
  · apply List.pairwise_of_forall_mem_list
    rintro _ hs _ _ table columns _ rfl _
    exact absurd hs d.not_replacePrimaryKey_mem_tableBlocks
  · rw [applications_eq_carryOut]
    exact keys_grow_carryOut _ _ _ _
  · rintro _ hs _ _ table columns _ rfl _
    exact absurd hs d.not_replacePrimaryKey_mem_tableBlocks

/-- Only class tables are altered. -/
theorem hasClassTable_of_altered {policy : CollisionPolicy} {d : Diagram}
    (h : st ∈ d.statements policy) (ht : st.altered? = some table) : d.HasClassTable policy table := by
  rcases mem_statements.mp h with h | ⟨a, ha, h⟩
  · obtain ⟨_, _, _, _, _, rfl | rfl⟩ := mem_tableBlocks.mp h <;> cases ht
  · obtain ⟨e, i, s, keys, _, _, hsuits, rfl⟩ := exists_of_mem_applications ha
    exact hsuits.altered h ht

/-- A table is created before it is altered. -/
theorem alters_created (d : Diagram) (policy : CollisionPolicy) :
    Follows (fun before s => ∀ table, s.altered? = some table → Creates before table)
      (d.statements policy) := by
  refine follows_append.mpr ⟨follows_of_forall ?_, follows_of_forall ?_⟩
  · intro _ s hs table ht
    obtain ⟨_, _, _, _, _, rfl | rfl⟩ := mem_tableBlocks.mp hs <;> cases ht
  · intro _ s hs table ht
    have hst : s ∈ d.statements policy := List.mem_append_right _ hs
    exact creates_append.mpr (Or.inl (creates_tableBlocks.mpr (hasClassTable_of_altered hst ht)))

/-- A script runs on an empty database. -/
theorem exists_built (d : Diagram) (policy : CollisionPolicy) :
    ∃ built, Database.empty.run (d.statements policy) = some built :=
  Database.exists_run ((d.alters_created policy).imp fun _ _ h table ht =>
    Or.inr (h table ht))

/-- A script runs through on the empty database. Run again on what it built, it runs through too,
and finds the same database before and after each of its statements. -/
theorem reapplied_script_changes_nothing (d : Diagram) (policy : CollisionPolicy) :
    ∃ built, Database.empty.run (d.statements policy) = some built ∧
      built.run (d.statements policy) = some built ∧
      Follows (fun before s => built.run before = some built ∧ built.exec s = some built)
        (d.statements policy) := by
  obtain ⟨built, hbuilt⟩ := Database.exists_run ((d.alters_created policy).imp
    fun before s h table ht => Or.inr (h table ht))
  have hsettled := Database.settled_of_run hbuilt (d.keys_grow policy)
  refine ⟨built, hbuilt, Database.run_eq_of_settled hsettled, ?_⟩
  intro before s after hsplit
  rw [hsplit] at hsettled
  have hbefore : ∀ s ∈ before, built.Settled s := fun s hs => hsettled s (List.mem_append_left _ hs)
  exact ⟨Database.run_eq_of_settled hbefore, (hsettled s (by simp)).exec_eq⟩

/-- A part of two wholes. Its key is replaced twice in the first run. -/
def partOfTwo : Diagram where
  classes := [⟨"a", "A", [], []⟩, ⟨"b", "B", [], []⟩, ⟨"c", "C", [], []⟩]
  relationships := [.bare .composition "a" "c", .bare .composition "b" "c"]

example : ((Database.empty.run (partOfTwo.statements .warn)).bind (·.tables "c")).map (·.key) =
    some ["id", "a_id", "b_id"] := by decide

end Diagram
end SchemaSynth
