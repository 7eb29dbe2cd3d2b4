import SchemaSynth.Proofs.CompositeKeys

/-! What the statements of a script say, told from the rules of the edges. -/
namespace SchemaSynth
open Strategy
variable {α : Type} {x : α} {d : Diagram} {policy : CollisionPolicy} {names : TableNames} {i : Nat}
  {e e' : RelationshipEdge} {s : Strategy} {source target : String} {key : List String}

/-- The first rule that an edge meets prescribes something between the tables at its ends. -/
def Diagram.Prescribed (d : Diagram) (policy : CollisionPolicy)
    (f : RelationshipEdge → String → String → Rule → List α) (x : α) : Prop :=
  ∃ i e r source target, d.relationships[i]? = some e ∧ d.firstRule i e = some r ∧
    (TableNames.resolve policy d).get? e.source = some source ∧
    (TableNames.resolve policy d).get? e.target = some target ∧ x ∈ f e source target r

/-- The first rule that the edge at a position meets, and the tables at its ends. -/
def Diagram.RuleBetween (d : Diagram) (policy : CollisionPolicy) (i : Nat) (r : Rule)
    (source target : String) : Prop :=
  ∃ e, d.relationships[i]? = some e ∧ d.firstRule i e = some r ∧
    (TableNames.resolve policy d).get? e.source = some source ∧
    (TableNames.resolve policy d).get? e.target = some target

/-- Where the edge does not matter but for its rule and its ends. -/
theorem Diagram.prescribed_iff {f : String → String → Rule → List α} :
    (d.Prescribed policy (fun _ source target r => f source target r) x) ↔
      ∃ i r source target, d.RuleBetween policy i r source target ∧ x ∈ f source target r := by
  constructor
  · rintro ⟨i, e, r, source, target, he, hr, hs, ht, hx⟩
    exact ⟨i, r, source, target, ⟨e, he, hr, hs, ht⟩, hx⟩
  · rintro ⟨i, r, source, target, ⟨e, he, hr, hs, ht⟩, hx⟩
    exact ⟨i, e, r, source, target, he, hr, hs, ht, hx⟩

/-- What is read off the statements for an edge is what the rule of the edge prescribes. -/
structure Reading (g : Statement → List α) (f : RelationshipEdge → String → String → Rule → List α) :
    Prop where
  comment : ∀ text, g (.comment text) = []
  missing : ∀ e source target, f e source target .missingEndpoint = []
  selfReference : ∀ e source target,
    (selfReferenceStatements source).flatMap g = f e source target .selfReference
  recursive : ∀ e source target,
    g (.createTable (recursiveTable source)) = f e source target .recursiveManyToMany
  ofKind : ∀ {e source target s}, SuitsKind e source target s → ∀ e' key,
    (s.statements e' key).flatMap g = f e source target s.rule

namespace Reading
variable {g : Statement → List α} {f : RelationshipEdge → String → String → Rule → List α}

private theorem mem_statements_iff (h : Reading g f) (hsuits : Suits d names i e s) :
    x ∈ (s.statements e' key).flatMap g ↔ ∃ source target, names.get? e.source = some source ∧
      names.get? e.target = some target ∧ x ∈ f e source target s.rule := by
  have hends {source target : String} (ha : d.Attached names i e source target) :
      (∃ source target, names.get? e.source = some source ∧ names.get? e.target = some target ∧
        x ∈ f e source target s.rule) ↔ x ∈ f e source target s.rule := by
    simp [ha.source_name, ha.target_name]
  cases hsuits with
  | skipUnknown => simp [statements, skipped, rule, h.comment, h.missing]
  | skipJoinClass => simp [statements, skipped, rule, h.comment, h.missing]
  | selfReference attached =>
    rw [hends attached]
    exact iff_of_eq (congrArg (x ∈ ·) (h.selfReference e _ _))
  | recursive attached =>
    rw [hends attached, rule, ← h.recursive]
    simp [statements, h.comment]
  | ofKind attached _ _ kind => rw [hends attached, h.ofKind kind]

/-- What can be read off the applications is what the edges prescribe. -/
theorem exists_mem_applications_iff (h : Reading g f) :
    (∃ st ∈ (d.applications (.resolve policy d) d.classify).flatMap (·.statements), x ∈ g st) ↔
      d.Prescribed policy f x := by
  constructor
  · rintro ⟨st, hst, hx⟩
    obtain ⟨a, ha, hst⟩ := List.mem_flatMap.mp hst
    obtain ⟨e, i, s, keys, he, _, hsuits, rfl⟩ := Diagram.exists_of_mem_applications ha
    have hmem : x ∈ (s.apply keys e i).statements.flatMap g := List.mem_flatMap.mpr ⟨st, hst, hx⟩
    obtain ⟨source, target, hs, ht, hx⟩ := (h.mem_statements_iff hsuits).mp hmem
    exact ⟨i, e, _, source, target, he, hsuits.firstRule, hs, ht, hx⟩
  · rintro ⟨i, e, r, source, target, he, hr, hs, ht, hx⟩
    obtain ⟨a, ha, _, s, e', key, hsuits, _, hstatements⟩ := Diagram.exists_application policy he
    obtain rfl : s.rule = r := Option.some.inj (hsuits.firstRule.symm.trans hr)
    have hmem : x ∈ (s.statements e' key).flatMap g :=
      (h.mem_statements_iff hsuits).mpr ⟨source, target, hs, ht, hx⟩
    obtain ⟨st, hst, hx⟩ := List.mem_flatMap.mp hmem
    exact ⟨st, List.mem_flatMap.mpr ⟨a, ha, hstatements ▸ hst⟩, hx⟩

/-- What can be read off a script is what the tables of the classes say and what the edges prescribe.
-/
theorem mem_script_iff (h : Reading g f) :
    x ∈ (d.statements policy).flatMap g ↔
      (∃ c ∈ d.firstClasses, ¬ d.IsJoin c.id ∧ ∃ name,
        (TableNames.resolve policy d).get? c.id = some name ∧ x ∈ g (.createTable (c.table name))) ∨
      d.Prescribed policy f x := by
  rw [← h.exists_mem_applications_iff, List.mem_flatMap]
  constructor
  · rintro ⟨st, hst, hx⟩
    rcases List.mem_append.mp hst with hst | hst
    · obtain ⟨c, hc, hj, name, hn, rfl | rfl⟩ := Diagram.mem_tableBlocks.mp hst
      · rw [h.comment] at hx
        cases hx
      · exact Or.inl ⟨c, hc, hj, name, hn, hx⟩
    · exact Or.inr ⟨st, hst, hx⟩
  · rintro (⟨c, hc, hj, name, hn, hx⟩ | ⟨st, hst, hx⟩)
    · have hst := Diagram.mem_tableBlocks.mpr ⟨c, hc, hj, name, hn, Or.inr rfl⟩
      exact ⟨_, List.mem_append_left _ hst, hx⟩
    · exact ⟨st, List.mem_append_right _ hst, hx⟩

end Reading
end SchemaSynth
