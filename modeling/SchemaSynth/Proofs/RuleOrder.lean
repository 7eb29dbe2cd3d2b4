import SchemaSynth.Proofs.Coverage

/-! The rules as an ordered list of clauses. Of the clauses that an edge meets the first is applied,
and its foreign keys are the ones that the clause prescribes. -/
namespace SchemaSynth

/-- A foreign key by the tables at its ends and its action. -/
structure Reference where
  table : String
  referenced : String
  onDelete : OnDelete
deriving DecidableEq

def ForeignKey.reference (k : ForeignKey) : Reference :=
  ⟨k.table, k.referencedTable, k.onDelete⟩

def Statement.foreignKeys : Statement → List ForeignKey
  | .createTable t => t.foreignKeys
  | .addForeignKey k => [k]
  | _ => []

def Statement.referencesOf (statements : List Statement) : List Reference :=
  (statements.flatMap (·.foreignKeys)).map (·.reference)

namespace Rule

def order : List Rule :=
  [.missingEndpoint, .selfReference, .recursiveManyToMany, .composition, .generalization,
    .aggregation, .manyToMany, .oneToMany, .fallback]

/-- The references that a rule prescribes between the tables at the ends of an edge. -/
def references (e : RelationshipEdge) (source target : String) : Rule → List Reference
  | .missingEndpoint => []
  | .selfReference => [⟨source, source, .setNull⟩]
  | .recursiveManyToMany =>
    let join := Identifier.joined [source, "recursiva_rel"]
    [⟨join, source, .cascade⟩, ⟨join, source, .cascade⟩]
  | .composition => [⟨target, source, .cascade⟩]
  | .generalization => [⟨target, source, .cascade⟩]
  | .aggregation =>
    if e.ManyToOne then [⟨source, target, .setNull⟩] else [⟨target, source, .setNull⟩]
  | .manyToMany =>
    let join := Identifier.joined [source, target, "rel"]
    [⟨join, source, .cascade⟩, ⟨join, target, .cascade⟩]
  | .oneToMany =>
    if e.OneToMany then [⟨target, source, .setNull⟩] else [⟨source, target, .setNull⟩]
  | .fallback => [⟨target, source, .setNull⟩]

/-- The references are those that the rule prescribes for an edge whose ends have tables. An edge
with a missing end has none. -/
def Prescribes (names : TableNames) (e : RelationshipEdge) (references : List Reference) : Rule → Prop
  | .missingEndpoint => references = []
  | r => ∃ source target, names.get? e.source = some source ∧ names.get? e.target = some target ∧
      references = r.references e source target

private theorem prescribes_references {r : Rule} {names : TableNames} {e : RelationshipEdge}
    {source target : String} (hs : names.get? e.source = some source)
    (ht : names.get? e.target = some target) : r.Prescribes names e (r.references e source target) := by
  cases r with
  | missingEndpoint => rfl
  | _ => exact ⟨source, target, hs, ht, rfl⟩

/-- Between tables that have names the prescribed references are those of the rule. -/
theorem Prescribes.eq_references {r : Rule} {names : TableNames} {e : RelationshipEdge}
    {source target : String} {references : List Reference} (h : r.Prescribes names e references)
    (hs : names.get? e.source = some source) (ht : names.get? e.target = some target) :
    references = r.references e source target := by
  have hends (h : ∃ source target, names.get? e.source = some source ∧
      names.get? e.target = some target ∧ references = r.references e source target) :
      references = r.references e source target := by
    obtain ⟨source', target', hs', ht', hr⟩ := h
    rw [Option.some.inj (hs.symm.trans hs'), Option.some.inj (ht.symm.trans ht')]
    exact hr
  cases r with
  | missingEndpoint => exact h
  | _ => exact hends h

/-- A prescribed reference is between tables that have names. -/
theorem Prescribes.of_mem {r : Rule} {names : TableNames} {e : RelationshipEdge}
    {reference : Reference} {references : List Reference} (h : r.Prescribes names e references)
    (hm : reference ∈ references) :
    ∃ source target, names.get? e.source = some source ∧ names.get? e.target = some target ∧
      references = r.references e source target := by
  cases r with
  | missingEndpoint =>
    rw [show references = [] from h] at hm
    cases hm
  | _ => exact h

/-- A rule refers to nothing but the tables at the ends. -/
theorem referenced_of_mem_references {r : Rule} {e : RelationshipEdge} {source target : String}
    {reference : Reference} (h : reference ∈ r.references e source target) :
    reference.referenced = source ∨ reference.referenced = target := by
  cases r with
  | aggregation => rw [references] at h; split at h <;> simp_all
  | oneToMany => rw [references] at h; split at h <;> simp_all
  | manyToMany => rcases List.mem_pair.mp h with rfl | rfl <;> simp
  | recursiveManyToMany => rcases List.mem_pair.mp h with rfl | rfl <;> simp
  | missingEndpoint => cases h
  | _ => exact Or.inl (by rw [List.mem_singleton.mp h])

end Rule

namespace Diagram
variable {d : Diagram} {policy : CollisionPolicy} {e : RelationshipEdge} {i : Nat}
  {source target : String}

/-- The clause of a rule, of the edge at a position. It does not say that earlier clauses fail. -/
def Meets (d : Diagram) (i : Nat) (e : RelationshipEdge) : Rule → Prop
  | .missingEndpoint => e.source ∉ d.ids ∨ e.target ∉ d.ids ∨
      ¬ d.Paired i ∧ (d.IsJoin e.source ∨ d.IsJoin e.target)
  | .selfReference => e.source = e.target
  | .recursiveManyToMany => d.Paired i
  | .composition => e.kind = .composition
  | .generalization => e.kind = .generalization
  | .aggregation => e.kind = .aggregation
  | .manyToMany => e.multiplicityFrom = .many ∧ e.multiplicityTo = .many
  | .oneToMany => e.OneToMany ∨ e.ManyToOne
  | .fallback => True

instance (d : Diagram) (i : Nat) (e : RelationshipEdge) : DecidablePred (d.Meets i e)
  | .missingEndpoint => inferInstanceAs (Decidable (e.source ∉ d.ids ∨ e.target ∉ d.ids ∨
      ¬ d.Paired i ∧ (d.IsJoin e.source ∨ d.IsJoin e.target)))
  | .selfReference => inferInstanceAs (Decidable (e.source = e.target))
  | .recursiveManyToMany => inferInstanceAs (Decidable (d.Paired i))
  | .composition => inferInstanceAs (Decidable (e.kind = .composition))
  | .generalization => inferInstanceAs (Decidable (e.kind = .generalization))
  | .aggregation => inferInstanceAs (Decidable (e.kind = .aggregation))
  | .manyToMany =>
    inferInstanceAs (Decidable (e.multiplicityFrom = .many ∧ e.multiplicityTo = .many))
  | .oneToMany => inferInstanceAs (Decidable (e.OneToMany ∨ e.ManyToOne))
  | .fallback => inferInstanceAs (Decidable True)

/-- The first rule whose clause the edge at a position meets. -/
def firstRule (d : Diagram) (i : Nat) (e : RelationshipEdge) : Option Rule :=
  Rule.order.find? (d.Meets i e ·)

/-- The first rule is the one that is met when none before it is. -/
theorem firstRule_eq_some {r : Rule} (before after : List Rule)
    (horder : Rule.order = before ++ r :: after) (hr : d.Meets i e r)
    (hbefore : ∀ q ∈ before, ¬ d.Meets i e q) : d.firstRule i e = some r := by
  rw [firstRule, List.find?_eq_some_iff_append]
  exact ⟨decide_eq_true hr, before, after, horder, fun q hq => by simpa using hbefore q hq⟩

private theorem Attached.not_missing (h : d.Attached (.resolve policy d) i e source target) :
    ¬ d.Meets i e .missingEndpoint := by
  have hs : e.source ∈ d.ids := (TableNames.get?_resolve_isSome policy d _).mp
    (Option.isSome_of_eq_some h.source_name)
  have ht : e.target ∈ d.ids := (TableNames.get?_resolve_isSome policy d _).mp
    (Option.isSome_of_eq_some h.target_name)
  rintro (hn | hn | ⟨single, joins⟩)
  · exact hn hs
  · exact hn ht
  · rcases h.plain with paired | ⟨hj, hj'⟩
    · exact single paired
    · exact joins.elim hj hj'

end Diagram

namespace Strategy
open Diagram
variable {d : Diagram} {policy : CollisionPolicy} {names : TableNames} {e f : RelationshipEdge}
  {i : Nat} {s : Strategy} {source target : String} {key : List String}

private theorem SuitsKind.firstRule (h : SuitsKind e source target s)
    (hfirst : ∀ q ∈ [Rule.missingEndpoint, .selfReference, .recursiveManyToMany], ¬ d.Meets i e q) :
    d.firstRule i e = some s.rule := by
  have hsplit (r : Rule) (before after : List Rule)
      (horder : Rule.order = [.missingEndpoint, .selfReference, .recursiveManyToMany] ++ before ++
        r :: after) (hr : d.Meets i e r) (hbefore : ∀ q ∈ before, ¬ d.Meets i e q) :
      d.firstRule i e = some r :=
    firstRule_eq_some _ after horder hr (List.forall_mem_append.mpr ⟨hfirst, hbefore⟩)
  cases h with
  | composition kind => exact hsplit .composition [] _ rfl kind (by simp)
  | generalization kind =>
    exact hsplit .generalization [.composition] _ rfl kind (by simp [Meets, kind])
  | aggregation kind =>
    exact hsplit .aggregation [.composition, .generalization] _ rfl kind (by simp [Meets, kind])
  | aggregationBack kind =>
    exact hsplit .aggregation [.composition, .generalization] _ rfl kind (by simp [Meets, kind])
  | manyToMany kind many_from many_to =>
    exact hsplit .manyToMany [.composition, .generalization, .aggregation] _ rfl
      ⟨many_from, many_to⟩ (by simp [Meets, kind])
  | oneToMany kind forwards =>
    exact hsplit .oneToMany [.composition, .generalization, .aggregation, .manyToMany] _ rfl
      (Or.inl forwards) (by simp [Meets, kind, forwards.1])
  | manyToOne kind backwards =>
    exact hsplit .oneToMany [.composition, .generalization, .aggregation, .manyToMany] _ rfl
      (Or.inr backwards) (by simp [Meets, kind, backwards.1])
  | fallback kind many forwards backwards =>
    exact hsplit .fallback [.composition, .generalization, .aggregation, .manyToMany, .oneToMany] _
      rfl trivial (by simpa [Meets, kind, forwards, backwards] using many)

/-- What suits an edge follows the first rule whose clause the edge meets. -/
theorem Suits.firstRule (h : Suits d (.resolve policy d) i e s) : d.firstRule i e = some s.rule := by
  cases h with
  | skipUnknown unknown _ =>
    exact firstRule_eq_some [] _ rfl (unknown.elim Or.inl (Or.inr ∘ Or.inl)) (by simp)
  | skipJoinClass _ _ single joins =>
    exact firstRule_eq_some [] _ rfl (Or.inr (Or.inr ⟨single, joins⟩)) (by simp)
  | selfReference attached same _ =>
    exact firstRule_eq_some [.missingEndpoint] _ rfl same (by simpa using attached.not_missing)
  | recursive attached different pair edge =>
    exact firstRule_eq_some [.missingEndpoint, .selfReference] _ rfl ⟨_, pair, edge⟩
      (by simpa using ⟨attached.not_missing, different⟩)
  | ofKind attached different single kind =>
    exact kind.firstRule (by simpa using ⟨attached.not_missing, different, single⟩)

/-- The statements for an edge refer as its rule prescribes. -/
theorem SuitsKind.references (h : SuitsKind e source target s) :
    Statement.referencesOf (s.statements f key) = s.rule.references e source target := by
  cases h with
  | aggregation _ forwards => exact (if_neg forwards).symm
  | aggregationBack _ backwards => exact (if_pos backwards).symm
  | oneToMany _ forwards => exact (if_pos forwards).symm
  | manyToOne _ backwards =>
    have forwards : ¬ e.OneToMany := by simp [RelationshipEdge.OneToMany, backwards.1]
    exact (if_neg forwards).symm
  | _ => rfl

/-- What suits an edge has the foreign keys that its rule prescribes. -/
theorem Suits.prescribes (h : Suits d names i e s) :
    s.rule.Prescribes names e (Statement.referencesOf (s.statements f key)) := by
  cases h with
  | skipUnknown => rfl
  | skipJoinClass => rfl
  | selfReference attached =>
    exact ⟨_, _, attached.source_name, attached.target_name, rfl⟩
  | recursive attached =>
    exact ⟨_, _, attached.source_name, attached.target_name, rfl⟩
  | ofKind attached _ _ kind =>
    rw [kind.references]
    exact Rule.prescribes_references attached.source_name attached.target_name

end Strategy

namespace Diagram

/-- The one application that uses up an edge is that of the first rule whose clause the edge meets,
with just the foreign keys that the rule prescribes between the tables of its ends. -/
theorem application_follows_first_rule (d : Diagram) (policy : CollisionPolicy)
    (i : Fin d.relationships.length) :
    let applications := d.applications (.resolve policy d) d.classify
    ∃ a ∈ applications, ↑i ∈ a.edges ∧ (∀ b ∈ applications, ↑i ∈ b.edges → b = a) ∧
      d.firstRule i d.relationships[i] = some a.rule ∧
      a.rule.Prescribes (.resolve policy d) d.relationships[i]
        (Statement.referencesOf a.statements) := by
  have he : d.relationships[(i : Nat)]? = some d.relationships[i] := List.getElem?_eq_getElem i.isLt
  obtain ⟨a, ha, hi, s, f, key, hsuits, hrule, hstatements⟩ := exists_application policy he
  refine ⟨a, ha, hi, fun b hb hib => application_unique hb ha hib hi, ?_, ?_⟩
  · rw [hrule]
    exact hsuits.firstRule
  · rw [hrule, hstatements]
    exact hsuits.prescribes

def unspecifiedGrouping : Diagram where
  classes := [⟨"c", "Course", [], []⟩, ⟨"s", "Student", [], []⟩]
  relationships := [⟨.aggregation, "c", "s", .unspecified, .one, ""⟩]

/-- A source of which nothing is said counts as many: the key is on its side. -/
theorem unspecifiedGrouping_source_side :
    ∃ a ∈ unspecifiedGrouping.applications (.resolve .warn unspecifiedGrouping)
        unspecifiedGrouping.classify,
      0 ∈ a.edges ∧ unspecifiedGrouping.firstRule 0 unspecifiedGrouping.relationships[0] =
        some .aggregation ∧
      ¬ (⟨"course", "student", .setNull⟩ ∈ Statement.referencesOf a.statements ↔
        unspecifiedGrouping.relationships[0].multiplicityTo = .one ∧
          unspecifiedGrouping.relationships[0].multiplicityFrom = .many) := by
  decide

end Diagram
end SchemaSynth
