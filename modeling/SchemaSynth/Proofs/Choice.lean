import SchemaSynth.Proofs.ClassTables
import SchemaSynth.Synthesis.Strategy

/-! What is chosen for an edge, and on what conditions. -/
namespace SchemaSynth
variable {d : Diagram} {names : TableNames} {e : RelationshipEdge}
  {i j : Nat} {s : Strategy} {source target join : String} {p : RecursivePair}

namespace Diagram

/-- The class an end belongs to has a table, unless the edge is one of the pair that takes it. -/
structure Attached (d : Diagram) (names : TableNames) (i : Nat) (e : RelationshipEdge)
    (source target : String) : Prop where
  source_name : names.get? e.source = some source
  target_name : names.get? e.target = some target
  plain : d.Paired i ∨ ¬ d.IsJoin e.source ∧ ¬ d.IsJoin e.target

/-- An edge of a pair runs between two different classes of the diagram. -/
theorem Paired.ends (h : d.Paired i) (he : d.relationships[i]? = some e) :
    e.source ∈ d.ids ∧ e.target ∈ d.ids ∧ e.source ≠ e.target := by
  obtain ⟨p, hp, hi⟩ := h
  obtain ⟨e', he', hq, _⟩ := pair_edge hp hi
  obtain rfl : e = e' := Option.some.inj (he.symm.trans he')
  simp only [qualifies, RelationshipEdge.isSelfReference, Bool.and_eq_true, Bool.not_eq_true',
    beq_eq_false_iff_ne, List.contains_iff_mem] at hq
  exact ⟨hq.1.2, hq.2, hq.1.1.1.1⟩

end Diagram

namespace RelationshipEdge

def OneToMany (e : RelationshipEdge) : Prop :=
  e.multiplicityFrom = .one ∧ (e.multiplicityTo = .many ∨ e.multiplicityTo = .unspecified)

def ManyToOne (e : RelationshipEdge) : Prop :=
  e.multiplicityTo = .one ∧ (e.multiplicityFrom = .many ∨ e.multiplicityFrom = .unspecified)

instance : DecidablePred OneToMany := fun e => inferInstanceAs
  (Decidable (e.multiplicityFrom = .one ∧ (e.multiplicityTo = .many ∨ e.multiplicityTo = .unspecified)))

instance : DecidablePred ManyToOne := fun e => inferInstanceAs
  (Decidable (e.multiplicityTo = .one ∧ (e.multiplicityFrom = .many ∨ e.multiplicityFrom = .unspecified)))

end RelationshipEdge

namespace Strategy
open Diagram

/-- The strategies that suit an edge between two tables, by its kind and its multiplicities. -/
inductive SuitsKind (e : RelationshipEdge) (source target : String) : Strategy → Prop
  | composition (kind : e.kind = .composition) : SuitsKind e source target (.composition source target)
  | generalization (kind : e.kind = .generalization) :
      SuitsKind e source target (.generalization source target)
  | aggregation (kind : e.kind = .aggregation) (forwards : ¬ e.ManyToOne) :
      SuitsKind e source target (.aggregation source target)
  | aggregationBack (kind : e.kind = .aggregation) (backwards : e.ManyToOne) :
      SuitsKind e source target (.aggregation target source)
  | manyToMany (kind : e.kind = .association) (many_from : e.multiplicityFrom = .many)
      (many_to : e.multiplicityTo = .many) : SuitsKind e source target (.manyToMany source target)
  | oneToMany (kind : e.kind = .association) (forwards : e.OneToMany) :
      SuitsKind e source target (.oneToMany source target)
  | manyToOne (kind : e.kind = .association) (backwards : e.ManyToOne) :
      SuitsKind e source target (.oneToMany target source)
  | fallback (kind : e.kind = .association)
      (many : ¬ (e.multiplicityFrom = .many ∧ e.multiplicityTo = .many))
      (forwards : ¬ e.OneToMany) (backwards : ¬ e.ManyToOne) :
      SuitsKind e source target (.fallback source target)

private theorem backwards_iff :
    (e.multiplicityTo.isOne && e.multiplicityFrom.isManyOrUnspecified) = true ↔ e.ManyToOne := by
  simp [Multiplicity.isOne, Multiplicity.isManyOrUnspecified, RelationshipEdge.ManyToOne]

private theorem forwards_iff :
    (e.multiplicityFrom.isOne && e.multiplicityTo.isManyOrUnspecified) = true ↔ e.OneToMany := by
  simp [Multiplicity.isOne, Multiplicity.isManyOrUnspecified, RelationshipEdge.OneToMany]

private theorem many_iff :
    (e.multiplicityFrom.isMany && e.multiplicityTo.isMany) = true ↔
      e.multiplicityFrom = .many ∧ e.multiplicityTo = .many := by
  simp [Multiplicity.isMany]

private theorem ofKind_suits (e : RelationshipEdge) (source target : String) :
    SuitsKind e source target (ofKind e source target) := by
  simp only [ofKind, many_iff, forwards_iff, backwards_iff]
  cases kind : e.kind with
  | composition => exact .composition kind
  | generalization => exact .generalization kind
  | aggregation =>
    by_cases backwards : e.ManyToOne
    · simpa [backwards] using SuitsKind.aggregationBack kind backwards
    · simpa [backwards] using SuitsKind.aggregation kind backwards
  | association =>
    by_cases many : e.multiplicityFrom = .many ∧ e.multiplicityTo = .many
    · simpa [many] using SuitsKind.manyToMany kind many.1 many.2
    by_cases forwards : e.OneToMany
    · simpa [many, forwards] using SuitsKind.oneToMany kind forwards
    by_cases backwards : e.ManyToOne
    · simpa [many, forwards, backwards] using SuitsKind.manyToOne kind backwards
    · simpa [many, forwards, backwards] using SuitsKind.fallback kind many forwards backwards

/-- The strategies that suit the edge at a position, with the conditions that each rests on. -/
inductive Suits (d : Diagram) (names : TableNames) (i : Nat) (e : RelationshipEdge) : Strategy → Prop
  | skipUnknown (unknown : e.source ∉ d.ids ∨ e.target ∉ d.ids) (single : ¬ d.Paired i) :
      Suits d names i e .skipUnknown
  | skipJoinClass {source target join : String} (source_name : names.get? e.source = some source)
      (target_name : names.get? e.target = some target) (single : ¬ d.Paired i)
      (joins : d.IsJoin e.source ∨ d.IsJoin e.target) :
      Suits d names i e (.skipJoinClass source target join)
  | selfReference {source target : String} (attached : d.Attached names i e source target)
      (same : e.source = e.target) (single : ¬ d.Paired i) :
      Suits d names i e (.selfReference source)
  | recursive {p : RecursivePair} {source target : String}
      (attached : d.Attached names i e source target) (different : e.source ≠ e.target)
      (pair : p ∈ d.classify.pairs) (edge : i ∈ p.edges) :
      Suits d names i e (.recursive p source target)
  | ofKind {source target : String} {s : Strategy} (attached : d.Attached names i e source target)
      (different : e.source ≠ e.target) (single : ¬ d.Paired i) (kind : SuitsKind e source target s) :
      Suits d names i e s

private theorem joinEnd?_eq_some (h : joinEnd? d.classify e = some join) :
    d.IsJoin e.source ∨ d.IsJoin e.target := by
  have hj : d.IsJoin join := isIntermediary_iff.mp (List.find?_some h)
  rcases List.mem_pair.mp (List.mem_of_find?_eq_some h) with rfl | rfl
  · exact Or.inl hj
  · exact Or.inr hj

private theorem joinEnd?_eq_none (h : joinEnd? d.classify e = none) :
    ¬ d.IsJoin e.source ∧ ¬ d.IsJoin e.target := by
  have hn := List.find?_eq_none.mp h
  simpa [isIntermediary_iff] using hn

/-- The strategy that is chosen suits the edge. -/
theorem choose_suits (policy : CollisionPolicy) (he : d.relationships[i]? = some e) :
    Suits d (.resolve policy d) i e (choose (.resolve policy d) d.classify e i) := by
  by_cases hs : e.source ∈ d.ids
  swap
  · rw [choose, TableNames.get?_resolve_eq_none hs]
    exact .skipUnknown (Or.inl hs) fun hp => hs (hp.ends he).1
  by_cases ht : e.target ∈ d.ids
  swap
  · rw [choose, TableNames.get?_resolve_eq_none ht]
    cases (TableNames.resolve policy d).get? e.source <;>
      exact .skipUnknown (Or.inr ht) fun hp => ht (hp.ends he).2.1
  obtain ⟨source, hsn⟩ := TableNames.exists_get?_resolve policy hs
  obtain ⟨target, htn⟩ := TableNames.exists_get?_resolve policy ht
  rw [choose, hsn, htn]
  cases hp : d.classify.pairFor? i with
  | none =>
    have single := pairFor?_eq_none_iff.mp hp
    cases hj : joinEnd? d.classify e with
    | some id => exact .skipJoinClass hsn htn single (joinEnd?_eq_some hj)
    | none =>
      have attached : d.Attached (.resolve policy d) i e source target :=
        ⟨hsn, htn, Or.inr (joinEnd?_eq_none hj)⟩
      by_cases same : e.source = e.target
      · simpa [RelationshipEdge.isSelfReference, same] using Suits.selfReference attached same single
      · simpa [RelationshipEdge.isSelfReference, same] using
          Suits.ofKind attached same single (ofKind_suits e source target)
  | some p =>
    obtain ⟨hpair, hi⟩ := pairFor?_eq_some_iff.mp hp
    obtain ⟨e', he', _, _, htarget⟩ := pair_edge hpair hi
    obtain rfl : e = e' := Option.some.inj (he.symm.trans he')
    have different := (Diagram.Paired.ends ⟨p, hpair, hi⟩ he).2.2
    have attached : d.Attached (.resolve policy d) i e source target :=
      ⟨hsn, htn, Or.inl ⟨p, hpair, hi⟩⟩
    simpa [RelationshipEdge.isSelfReference, different, ← htarget, htn] using
      Suits.recursive attached different hpair hi

/-- What suits an edge of a pair is the recursive rule between the tables of the pair. -/
theorem Suits.of_pair (h : Suits d names i e s) (he : d.relationships[i]? = some e)
    (hp : p ∈ d.classify.pairs) (hi : i ∈ p.edges) :
    ∃ source target, s = .recursive p source target ∧ names.get? p.source = some source ∧
      names.get? p.target = some target := by
  have paired : d.Paired i := ⟨p, hp, hi⟩
  cases h with
  | skipUnknown _ single => exact absurd paired single
  | skipJoinClass _ _ single _ => exact absurd paired single
  | selfReference _ _ single => exact absurd paired single
  | ofKind _ _ single _ => exact absurd paired single
  | @recursive q source target attached _ hq hiq =>
    obtain rfl := pair_unique hp hq hi hiq
    obtain ⟨e', he', _, hsource, htarget⟩ := pair_edge hp hi
    obtain rfl : e = e' := Option.some.inj (he.symm.trans he')
    exact ⟨source, target, rfl, hsource ▸ attached.source_name, htarget ▸ attached.target_name⟩

private theorem SuitsKind.edges (h : SuitsKind e source target s) (i : Nat) :
    s.edges i = [i] ∧ s.rule ≠ .recursiveManyToMany := by
  cases h <;> exact ⟨rfl, by simp [rule]⟩

/-- The rules for compositions and for generalizations are for the tables at the ends of the edge, in their
order. -/
theorem Suits.eq_of_directed (h : Suits d names i e s) (make : String → String → Strategy)
    (directed : make = composition ∨ make = generalization) (hr : s.rule = (make "" "").rule) :
    ∃ source target, s = make source target ∧ names.get? e.source = some source ∧
      names.get? e.target = some target := by
  cases h with
  | ofKind attached _ _ kind =>
    rcases directed with rfl | rfl
    · cases kind with
      | composition => exact ⟨_, _, rfl, attached.source_name, attached.target_name⟩
      | _ => cases hr
    · cases kind with
      | generalization => exact ⟨_, _, rfl, attached.source_name, attached.target_name⟩
      | _ => cases hr
  | _ => rcases directed with rfl | rfl <;> cases hr

/-- An edge outside of all pairs is used up alone, and not by the recursive rule. -/
theorem Suits.of_single (h : Suits d names i e s) (single : ¬ d.Paired i) :
    s.edges i = [i] ∧ s.rule ≠ .recursiveManyToMany := by
  cases h with
  | skipUnknown => exact ⟨rfl, by simp [rule]⟩
  | skipJoinClass => exact ⟨rfl, by simp [rule]⟩
  | selfReference => exact ⟨rfl, by simp [rule]⟩
  | recursive _ _ hp hi => exact absurd ⟨_, hp, hi⟩ single
  | ofKind _ _ _ kind => exact kind.edges i

/-- In its own turn an edge uses up just the edges it leads. -/
theorem Suits.mem_edges (h : Suits d names i e s) (he : d.relationships[i]? = some e)
    (hl : d.classify.lead i = i) : j ∈ s.edges i ↔ d.classify.lead j = i := by
  by_cases paired : d.Paired i
  · obtain ⟨p, hp, hi⟩ := paired
    obtain ⟨source, target, rfl, _⟩ := h.of_pair he hp hi
    have hfirst : p.first = i := (lead_of_mem hp hi).symm.trans hl
    rw [← hfirst, lead_eq_first_iff hp]
    rfl
  · rw [(h.of_single paired).1, lead_eq_iff_of_not_paired paired, List.mem_singleton]

/-- In its own turn an edge comes first among those it uses up, and two are used up only by the
recursive rule. -/
theorem Suits.edges_shape (h : Suits d names i e s) (he : d.relationships[i]? = some e)
    (hl : d.classify.lead i = i) :
    (s.edges i).head? = some i ∧ (s.edges i).Pairwise (· < ·) ∧
      (s.edges i).length = if s.rule = .recursiveManyToMany then 2 else 1 := by
  by_cases paired : d.Paired i
  · obtain ⟨p, hp, hi⟩ := paired
    obtain ⟨source, target, rfl, _⟩ := h.of_pair he hp hi
    have hfirst : p.first = i := (lead_of_mem hp hi).symm.trans hl
    exact ⟨congrArg some hfirst, by simpa [edges] using pair_first_lt_second hp, rfl⟩
  · obtain ⟨hedges, hrule⟩ := h.of_single paired
    rw [hedges, if_neg hrule]
    exact ⟨rfl, List.pairwise_singleton _ _, rfl⟩

end Strategy
end SchemaSynth
