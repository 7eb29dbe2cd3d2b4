import SchemaSynth.Proofs.RecursivePairs
import SchemaSynth.Synthesis.ClassTable

/-! Which ids have a table name, and which classes have a table. -/
namespace SchemaSynth

namespace TableNames
variable {policy : CollisionPolicy} {id : String}

private theorem lookup_assign (assigned : List (String × String)) (c : ClassNode) :
    ((assign policy assigned c).lookup id).isSome = true ↔
      (assigned.lookup id).isSome = true ∨ c.id = id := by
  unfold assign
  split
  · rename_i h
    constructor
    · exact Or.inl
    · rintro (ha | rfl)
      · exact ha
      · exact h
  · have hc (x : String) : (List.lookup id [(c.id, x)]).isSome = true ↔ c.id = id := by
      rw [List.lookup_isSome_iff]
      simpa using eq_comm
    rw [List.lookup_append, Option.isSome_or, Bool.or_eq_true, hc]

private theorem lookup_foldl_assign (cs : List ClassNode) (assigned : List (String × String)) :
    ((cs.foldl (assign policy) assigned).lookup id).isSome = true ↔
      (assigned.lookup id).isSome = true ∨ ∃ c ∈ cs, c.id = id := by
  induction cs generalizing assigned with
  | nil => simp
  | cons c cs ih =>
    rw [List.foldl_cons, ih, lookup_assign, or_assoc]
    simp

/-- A table name is resolved for the ids of classes and for no other. -/
theorem get?_resolve_isSome (policy : CollisionPolicy) (d : Diagram) (id : String) :
    ((resolve policy d).get? id).isSome = true ↔ id ∈ d.ids := by
  unfold get? resolve
  rw [lookup_foldl_assign]
  simp [Diagram.ids]

/-- Every id of the diagram has a name under either policy. -/
theorem exists_get?_resolve (policy : CollisionPolicy) {d : Diagram} (h : id ∈ d.ids) :
    ∃ name, (resolve policy d).get? id = some name :=
  Option.isSome_iff_exists.mp ((get?_resolve_isSome policy d id).mpr h)

/-- An id that is no class has no name. -/
theorem get?_resolve_eq_none {d : Diagram} (h : id ∉ d.ids) : (resolve policy d).get? id = none := by
  rw [← Option.not_isSome_iff_eq_none, get?_resolve_isSome]
  exact h

end TableNames

namespace Diagram
variable {d : Diagram} {c : ClassNode} {names : TableNames} {s : Statement} {id name : String}

/-- A first class is one that no class before it shares its id with. -/
theorem mem_firstClasses_iff_append :
    c ∈ d.firstClasses ↔
      ∃ before after, d.classes = before ++ c :: after ∧ ∀ b ∈ before, b.id ≠ c.id := by
  simp only [firstClasses, List.mem_filterMap, List.mem_zipIdx_iff_getElem?, Prod.exists]
  constructor
  · rintro ⟨c', n, hn, hc⟩
    split at hc
    · cases hc
    · rename_i hany
      obtain rfl := Option.some.inj hc
      obtain ⟨hlt, hget⟩ := List.getElem?_eq_some_iff.mp hn
      refine ⟨d.classes.take n, d.classes.drop (n + 1), ?_, ?_⟩
      · rw [← hget, ← List.drop_eq_getElem_cons hlt, List.take_append_drop]
      · simpa using hany
  · rintro ⟨before, after, hd, hb⟩
    refine ⟨c, before.length, by simp [hd], ?_⟩
    simpa [hd] using hb

/-- The classes that tables are made of are the first ones of their ids. -/
theorem mem_firstClasses : c ∈ d.firstClasses ↔ d.find? c.id = some c := by
  rw [mem_firstClasses_iff_append, find?, List.find?_eq_some_iff_append]
  simp

/-- Every id has a first class. -/
theorem exists_mem_firstClasses (h : id ∈ d.ids) : ∃ c ∈ d.firstClasses, c.id = id := by
  cases hf : d.find? id with
  | none =>
    obtain ⟨c, hc, rfl⟩ := List.mem_map.mp h
    exact absurd (beq_self_eq_true c.id) (List.find?_eq_none.mp hf c hc)
  | some c =>
    have hid : c.id = id := by simpa using List.find?_some hf
    exact ⟨c, mem_firstClasses.mpr (hid ▸ hf), hid⟩

/-- The table blocks hold a comment and a table for each named class that is no join class. -/
theorem mem_tableBlocks :
    s ∈ (d.tableBlocks names d.classify).flatten ↔
      ∃ c ∈ d.firstClasses, ¬ d.IsJoin c.id ∧ ∃ name, names.get? c.id = some name ∧
        (s = .comment ("Table for class " ++ name) ∨ s = .createTable (c.table name)) := by
  simp only [tableBlocks, List.mem_flatten, List.mem_filterMap, List.mem_filter, tableBlock,
    Option.map_eq_some_iff, Bool.not_eq_true', ← Bool.not_eq_true, isIntermediary_iff]
  constructor
  · rintro ⟨block, ⟨c, ⟨hc, hj⟩, name, hn, rfl⟩, hs⟩
    exact ⟨c, hc, hj, name, hn, by simpa using hs⟩
  · rintro ⟨c, hc, hj, name, hn, hs⟩
    exact ⟨_, ⟨c, ⟨hc, hj⟩, name, hn, rfl⟩, by simpa using hs⟩

end Diagram
end SchemaSynth
