import SchemaSynth.Proofs.CreatedTables
import SchemaSynth.Proofs.Identifiers

/-! The keys that compositions give to parts, and the foreign keys that still refer to a part. -/
namespace SchemaSynth

namespace PartKeys
variable {keys : PartKeys} {part whole : String}

def KeepId (keys : PartKeys) : Prop := ∀ part, "id" ∈ keys.keyOf part

private theorem keepId_nil : KeepId [] := fun _ => List.mem_cons_self

/-- A composition adds to a key the column for its whole, and nothing else. -/
theorem mem_extended {column : String} :
    column ∈ keys.extended whole part ↔
      column ∈ keys.keyOf part ∨ column = Strategy.referenceColumn whole := by
  simp only [extended]
  split
  · rename_i h
    have hcolumn := List.contains_iff_mem.mp h
    exact ⟨Or.inl, fun h => h.elim id fun he => he ▸ hcolumn⟩
  · rw [List.mem_append, List.mem_singleton]

/-- A composition extends the key of its part and leaves the other keys. -/
theorem keyOf_keysAfter_composition (keys : PartKeys) (whole part other : String) :
    (Strategy.keysAfter keys (.composition whole part)).keyOf other =
      if other = part then keys.extended whole part else keys.keyOf other := by
  by_cases ho : other = part
  · subst ho
    simp [Strategy.keysAfter, keyOf]
  · simp [Strategy.keysAfter, keyOf, List.lookup_cons, beq_false_of_ne ho, ho]

/-- What all key columns have, and the columns that compositions refer to wholes by, they have after
a strategy. -/
theorem forall_keyOf_keysAfter {P : String → Prop} {s : Strategy}
    (hwhole : ∀ whole part, s = .composition whole part → P (Strategy.referenceColumn whole))
    (h : ∀ part, ∀ column ∈ keys.keyOf part, P column) :
    ∀ part, ∀ column ∈ (s.keysAfter keys).keyOf part, P column := by
  cases s with
  | composition whole part =>
    intro other column hcolumn
    rw [keyOf_keysAfter_composition] at hcolumn
    split at hcolumn
    · rcases mem_extended.mp hcolumn with hcolumn | rfl
      · exact h part column hcolumn
      · exact hwhole whole part rfl
    · exact h other column hcolumn
  | _ => exact h

private theorem KeepId.after (h : KeepId keys) (s : Strategy) : KeepId (s.keysAfter keys) := by
  cases s with
  | composition whole part =>
    intro other
    rw [keyOf_keysAfter_composition]
    split
    · rename_i ho
      exact mem_extended.mpr (Or.inl (ho ▸ h other))
    · exact h other
  | _ => exact h

end PartKeys

namespace Strategy
variable {d : Diagram} {names : TableNames} {e f : RelationshipEdge} {i : Nat} {s : Strategy}
  {keys : PartKeys} {columns key : List String} {table whole : String}

/-- The column of a reference is never the key of its table. -/
theorem referenceColumn_ne_id (table : String) : referenceColumn table ≠ "id" :=
  Identifier.suffixed_ne (by decide)

/-- Only compositions replace a key. -/
theorem mem_replacePrimaryKey (h : .replacePrimaryKey table columns ∈ s.statements f key) :
    ∃ whole, s = .composition whole table ∧ columns = key := by
  cases s <;>
    simp_all [statements, selfReferenceStatements, compositionStatements, generalizationStatements,
      referenceOn, skipped]

private theorem one_lt_length_partKey (h : keys.KeepId) :
    1 < (partKey keys (.composition whole table)).length := by
  have hid : "id" ∈ keys.extended whole table := PartKeys.mem_extended.mpr (Or.inl (h table))
  have hcolumn : referenceColumn whole ∈ keys.extended whole table :=
    PartKeys.mem_extended.mpr (Or.inr rfl)
  have hne := referenceColumn_ne_id whole
  rw [partKey]
  match hkey : keys.extended whole table with
  | [] => rw [hkey] at hid; cases hid
  | [column] =>
    rw [hkey, List.mem_singleton] at hid hcolumn
    exact absurd (hcolumn.trans hid.symm) hne
  | _ :: _ :: rest => simp

end Strategy

namespace Statement

/-- No table whose key was replaced by one over several columns is referred to. A reference is to
the column `id` of a table, and needs a key over that column alone. -/
def KeysStand (statements : List Statement) : Prop :=
  ∀ table columns, .replacePrimaryKey table columns ∈ statements → 1 < columns.length →
    ∀ s ∈ statements, ∀ k ∈ s.foreignKeys, k.referencedTable ≠ table

end Statement

namespace Diagram
open Strategy Statement
variable {d : Diagram} {policy : CollisionPolicy} {st : Statement} {table : String}

/-- The first rule that the edge at a position meets is the one for compositions, and the table is
that of the part. -/
def ComposesInto (d : Diagram) (policy : CollisionPolicy) (i : Nat) (table : String) : Prop :=
  ∃ e, d.relationships[i]? = some e ∧ d.firstRule i e = some .composition ∧
    (TableNames.resolve policy d).get? e.target = some table

/-- The first rule that the edge at a position meets prescribes a reference to the table. -/
def RefersTo (d : Diagram) (policy : CollisionPolicy) (i : Nat) (table : String) : Prop :=
  ∃ e r source target, d.relationships[i]? = some e ∧ d.firstRule i e = some r ∧
    (TableNames.resolve policy d).get? e.source = some source ∧
    (TableNames.resolve policy d).get? e.target = some target ∧
    ∃ reference ∈ r.references e source target, reference.referenced = table

/-- A statement of the script makes a class table or belongs to the application of a rule. -/
theorem mem_statements :
    st ∈ d.statements policy ↔ st ∈ (d.tableBlocks (.resolve policy d) d.classify).flatten ∨
      ∃ a ∈ d.applications (.resolve policy d) d.classify, st ∈ a.statements := by
  rw [← List.mem_flatMap, ← List.mem_append]
  rfl

private theorem exists_foreignKey_iff :
    (∃ st ∈ d.statements policy, ∃ k ∈ st.foreignKeys, k.referencedTable = table) ↔
      ∃ i, d.RefersTo policy i table := by
  constructor
  · rintro ⟨st, hst, k, hk, rfl⟩
    rcases mem_statements.mp hst with hst | ⟨a, ha, hst⟩
    · rw [foreignKeys_tableBlocks hst] at hk
      cases hk
    obtain ⟨e, i, s, keys, he, _, hsuits, rfl⟩ := exists_of_mem_applications ha
    have hmem : k.reference ∈ referencesOf (s.statements e (partKey keys s)) :=
      mem_referencesOf.mpr ⟨st, hst, k, hk, rfl⟩
    obtain ⟨source, target, hs, ht, hreferences⟩ := hsuits.prescribes.of_mem hmem
    rw [hreferences] at hmem
    exact ⟨i, e, _, source, target, he, hsuits.firstRule, hs, ht, k.reference, hmem, rfl⟩
  · rintro ⟨i, e, r, source, target, he, hr, hs, ht, reference, hmem, rfl⟩
    obtain ⟨a, ha, _, s, f, key, hsuits, _, hstatements⟩ := exists_application policy he
    obtain rfl : s.rule = r := Option.some.inj (hsuits.firstRule.symm.trans hr)
    rw [← hsuits.prescribes.eq_references hs ht] at hmem
    obtain ⟨st, hst, k, hk, rfl⟩ := mem_referencesOf.mp hmem
    exact ⟨st, mem_statements.mpr (Or.inr ⟨a, ha, hstatements ▸ hst⟩), k, hk, rfl⟩

/-- Every replaced key is over several columns. -/
theorem one_lt_length_of_replacePrimaryKey {columns : List String}
    (h : .replacePrimaryKey table columns ∈ d.statements policy) : 1 < columns.length := by
  rcases mem_statements.mp h with h | ⟨a, ha, h⟩
  · obtain ⟨_, _, _, _, _, h | h⟩ := mem_tableBlocks.mp h <;> cases h
  rw [applications_eq_carryOut] at ha
  obtain ⟨e, i, keys, _, hkeys, rfl⟩ := exists_of_mem_carryOut (P := PartKeys.KeepId)
    (fun _ _ _ hkeys => hkeys.after _) PartKeys.keepId_nil ha
  obtain ⟨whole, hs, rfl⟩ := mem_replacePrimaryKey h
  rw [hs]
  exact one_lt_length_partKey hkeys

/-- The tables whose key a script replaces are those of the parts. -/
theorem exists_replacePrimaryKey_iff :
    (∃ columns, .replacePrimaryKey table columns ∈ d.statements policy) ↔
      ∃ i, d.ComposesInto policy i table := by
  constructor
  · rintro ⟨columns, h⟩
    rcases mem_statements.mp h with h | ⟨a, ha, h⟩
    · obtain ⟨_, _, _, _, _, h | h⟩ := mem_tableBlocks.mp h <;> cases h
    obtain ⟨e, i, s, keys, he, _, hsuits, rfl⟩ := exists_of_mem_applications ha
    obtain ⟨whole, rfl, _⟩ := mem_replacePrimaryKey h
    obtain ⟨_, _, hs, _, ht⟩ := hsuits.eq_of_directed composition (.inl rfl) rfl
    cases hs
    exact ⟨i, e, he, hsuits.firstRule, ht⟩
  · rintro ⟨i, e, he, hr, ht⟩
    obtain ⟨a, ha, _, s, f, key, hsuits, _, hstatements⟩ := exists_application policy he
    have hrule := Option.some.inj (hsuits.firstRule.symm.trans hr)
    obtain ⟨source, target, rfl, _, ht'⟩ := hsuits.eq_of_directed composition (.inl rfl) hrule
    obtain rfl := Option.some.inj (ht.symm.trans ht')
    refine ⟨key, mem_statements.mpr (Or.inr ⟨a, ha, ?_⟩)⟩
    rw [hstatements]
    simp [Strategy.statements, compositionStatements]

/-- A script keeps the keys that it refers to, unless an edge refers to the part of a composition.
-/
theorem keys_stand_iff (d : Diagram) (policy : CollisionPolicy) :
    KeysStand (d.statements policy) ↔
      ∀ table, (∃ i, d.ComposesInto policy i table) → ¬ ∃ j, d.RefersTo policy j table := by
  constructor
  · intro h table hcomposed hreferred
    obtain ⟨columns, hreplaced⟩ := exists_replacePrimaryKey_iff.mpr hcomposed
    obtain ⟨st, hst, k, hk, hkt⟩ := exists_foreignKey_iff.mpr hreferred
    exact h table columns hreplaced (one_lt_length_of_replacePrimaryKey hreplaced) st hst k hk hkt
  · intro h table columns hreplaced _ st hst k hk hkt
    exact h table (exists_replacePrimaryKey_iff.mp ⟨columns, hreplaced⟩)
      (exists_foreignKey_iff.mp ⟨st, hst, k, hk, hkt⟩)

/-- A part of a whole that is also the one side of a relationship. -/
def referredPart : Diagram where
  classes := [⟨"a", "A", [], []⟩, ⟨"b", "B", [], []⟩, ⟨"c", "C", [], []⟩]
  relationships := [⟨.composition, "a", "b", .unspecified, .unspecified, ""⟩,
    ⟨.association, "b", "c", .one, .many, ""⟩]

/-- The key of the part is over two columns, and the many side refers to its `id` alone. -/
theorem referredPart_loses_key : ¬ KeysStand (referredPart.statements .warn) := by
  intro h
  exact h "b" ["id", "a_id"] (by decide) (by decide)
    (.addForeignKey (.between "c" "b_id" "b" .setNull)) (by decide)
    (.between "c" "b_id" "b" .setNull) List.mem_cons_self rfl

end Diagram
end SchemaSynth
