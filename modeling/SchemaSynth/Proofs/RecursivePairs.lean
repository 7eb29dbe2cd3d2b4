import SchemaSynth.Proofs.Sequence
import SchemaSynth.Synthesis.Classification
import Mathlib.Data.List.Nodup

/-! Recursive pairs: just two links between their ends, and no edge in two of them. -/
namespace SchemaSynth

def RecursivePair.edges (p : RecursivePair) : List Nat := [p.first, p.second]

theorem RecursivePair.first_mem_edges (p : RecursivePair) : p.first ∈ p.edges := List.mem_cons_self

theorem RecursivePair.second_mem_edges (p : RecursivePair) : p.second ∈ p.edges :=
  List.mem_cons_of_mem _ List.mem_cons_self

/-- The position of the edge that an edge is handled with: the first of its pair, or itself. -/
def Classification.lead (c : Classification) (i : Nat) : Nat :=
  ((c.pairFor? i).map (·.first)).getD i

namespace Diagram
variable {d : Diagram} {e : RelationshipEdge} {p q : RecursivePair} {i j : Nat} {s t : String}

def Paired (d : Diagram) (i : Nat) : Prop := ∃ p ∈ d.classify.pairs, i ∈ p.edges

def IsJoin (d : Diagram) (id : String) : Prop := ∃ p ∈ d.classify.pairs, p.target = id

instance : Decidable (d.Paired i) :=
  inferInstanceAs (Decidable (∃ p ∈ d.classify.pairs, i ∈ p.edges))

instance : Decidable (d.IsJoin s) :=
  inferInstanceAs (Decidable (∃ p ∈ d.classify.pairs, p.target = s))

/-- The intermediaries of the classification are the join classes. -/
theorem isIntermediary_iff : d.classify.isIntermediary s = true ↔ d.IsJoin s := by
  simp [Classification.isIntermediary, IsJoin]

private theorem mem_candidates :
    (e, i) ∈ d.candidates ↔ d.relationships[i]? = some e ∧ d.qualifies e = true := by
  simp [candidates, List.mem_zipIdx_iff_getElem?]

private theorem candidates_sorted : d.candidates.Pairwise (fun a b => a.2 < b.2) :=
  (zipIdx_sorted d.relationships 0).sublist List.filter_sublist

/-- The links between two classes are the qualifying edges from the one to the other. -/
theorem mem_links :
    i ∈ d.links s t ↔
      ∃ e, d.relationships[i]? = some e ∧ d.qualifies e = true ∧ e.source = s ∧ e.target = t := by
  simp [links, mem_candidates, and_assoc]

/-- The links between two classes come in the order of the diagram. -/
theorem links_sorted : (d.links s t).Pairwise (· < ·) :=
  List.pairwise_map.mpr (candidates_sorted.sublist List.filter_sublist)

private theorem pairAt?_eq_some_iff :
    d.pairAt? e i = some p ↔
      d.links e.source e.target = [i, p.second] ∧ p = ⟨e.source, e.target, i, p.second⟩ := by
  unfold pairAt?
  split
  · rename_i first second hl
    by_cases hi : first = i
    · subst hi
      simp only [hl, if_true, Option.some.injEq]
      constructor
      · rintro rfl
        exact ⟨rfl, rfl⟩
      · rintro ⟨h, hp⟩
        rw [hp]
        simpa using h
    · simp [hl, hi]
  · rename_i hl
    simp only [reduceCtorEq, false_iff, not_and]
    exact fun h => absurd h (hl _ _)

/-- The pairs are those of ends with just two links between them. -/
theorem mem_pairs : p ∈ d.classify.pairs ↔ d.links p.source p.target = p.edges := by
  simp only [classify, List.mem_filterMap, Prod.exists, RecursivePair.edges]
  constructor
  · rintro ⟨e, i, _, hp⟩
    obtain ⟨hl, he⟩ := pairAt?_eq_some_iff.mp hp
    rw [he]
    exact hl
  · intro hl
    have hm : p.first ∈ d.links p.source p.target := by simp [hl]
    obtain ⟨e, he, hq, hs, ht⟩ := mem_links.mp hm
    refine ⟨e, p.first, mem_candidates.mpr ⟨he, hq⟩, pairAt?_eq_some_iff.mpr ?_⟩
    rw [hs, ht]
    exact ⟨hl, rfl⟩

/-- The first edge of a pair is drawn before the second. -/
theorem pair_first_lt_second (hp : p ∈ d.classify.pairs) : p.first < p.second := by
  have h := links_sorted (d := d) (s := p.source) (t := p.target)
  rw [mem_pairs.mp hp] at h
  simpa [RecursivePair.edges] using h

/-- Both edges of a pair run from its source to its target. -/
theorem pair_edge (hp : p ∈ d.classify.pairs) (hi : i ∈ p.edges) :
    ∃ e, d.relationships[i]? = some e ∧ d.qualifies e = true ∧
      e.source = p.source ∧ e.target = p.target := by
  rw [← mem_pairs.mp hp] at hi
  exact mem_links.mp hi

/-- No edge is in two pairs. -/
theorem pair_unique (hp : p ∈ d.classify.pairs) (hq : q ∈ d.classify.pairs)
    (hip : i ∈ p.edges) (hiq : i ∈ q.edges) : p = q := by
  obtain ⟨e, he, _, hs, ht⟩ := pair_edge hp hip
  obtain ⟨e', he', _, hs', ht'⟩ := pair_edge hq hiq
  obtain rfl : e = e' := Option.some.inj (he.symm.trans he')
  have hl : p.edges = q.edges := by
    rw [← mem_pairs.mp hp, ← mem_pairs.mp hq, ← hs, ← ht, ← hs', ← ht']
  cases p
  cases q
  simp_all [RecursivePair.edges]

/-- An edge has the pair that it belongs to. -/
theorem pairFor?_eq_some_iff :
    d.classify.pairFor? i = some p ↔ p ∈ d.classify.pairs ∧ i ∈ p.edges := by
  have he (q : RecursivePair) : (q.first == i || q.second == i) = true ↔ i ∈ q.edges := by
    simp only [Bool.or_eq_true, beq_iff_eq, RecursivePair.edges, List.mem_cons, List.not_mem_nil,
      or_false, @eq_comm _ i]
  unfold Classification.pairFor?
  constructor
  · intro h
    have hb := List.find?_some h
    exact ⟨List.mem_of_find?_eq_some h, (he p).mp hb⟩
  · rintro ⟨hp, hi⟩
    cases hf : d.classify.pairs.find? fun q => q.first == i || q.second == i with
    | none => exact absurd ((he p).mpr hi) (List.find?_eq_none.mp hf p hp)
    | some q =>
      have hb := List.find?_some hf
      rw [pair_unique hp (List.mem_of_find?_eq_some hf) hi ((he q).mp hb)]

/-- An edge without a pair belongs to none. -/
theorem pairFor?_eq_none_iff : d.classify.pairFor? i = none ↔ ¬ d.Paired i := by
  rw [← not_iff_not, not_not, ← ne_eq, Option.ne_none_iff_exists']
  simp [pairFor?_eq_some_iff, Paired]

/-- The pairs stand in the order of their first edges. -/
theorem pairs_sorted : d.classify.pairs.Pairwise (fun p q => p.first < q.first) := by
  have hf {x : RelationshipEdge × Nat} {p : RecursivePair} (h : d.pairAt? x.1 x.2 = some p) :
      p.first = x.2 := by
    rw [(pairAt?_eq_some_iff.mp h).2]
  apply List.pairwise_filterMap.mpr
  apply candidates_sorted.imp
  intro x y hxy p hp q hq
  rw [hf hp, hf hq]
  exact hxy

/-- No pair is found twice. -/
theorem pairs_nodup : d.classify.pairs.Nodup := by
  apply pairs_sorted.imp
  rintro p _ h rfl
  exact Nat.lt_irrefl _ h

/-- No edge is the second one of two pairs. -/
theorem pair_seconds_nodup : (d.classify.pairs.map (·.second)).Nodup := by
  refine List.Nodup.map_on ?_ pairs_nodup
  intro p hp q hq h
  exact pair_unique hp hq p.second_mem_edges (h ▸ q.second_mem_edges)

/-- The edges of a pair are led by its first. -/
theorem lead_of_mem (hp : p ∈ d.classify.pairs) (hi : i ∈ p.edges) :
    d.classify.lead i = p.first := by
  simp [Classification.lead, pairFor?_eq_some_iff.mpr ⟨hp, hi⟩]

/-- An edge outside of pairs leads itself. -/
theorem lead_of_not_paired (h : ¬ d.Paired i) : d.classify.lead i = i := by
  simp [Classification.lead, pairFor?_eq_none_iff.mpr h]

/-- The first edge of a pair leads itself. -/
theorem lead_first (hp : p ∈ d.classify.pairs) : d.classify.lead p.first = p.first :=
  lead_of_mem hp p.first_mem_edges

/-- The first edge of a pair leads exactly the edges of the pair. -/
theorem lead_eq_first_iff (hp : p ∈ d.classify.pairs) :
    d.classify.lead i = p.first ↔ i ∈ p.edges := by
  refine ⟨fun h => ?_, lead_of_mem hp⟩
  by_cases hi : d.Paired i
  · obtain ⟨q, hq, hiq⟩ := hi
    rw [lead_of_mem hq hiq] at h
    obtain rfl : p = q := pair_unique hp hq p.first_mem_edges (h ▸ q.first_mem_edges)
    exact hiq
  · rw [lead_of_not_paired hi] at h
    exact h ▸ p.first_mem_edges

/-- An edge outside of pairs leads no other. -/
theorem lead_eq_iff_of_not_paired (h : ¬ d.Paired j) : d.classify.lead i = j ↔ i = j := by
  constructor
  · intro hi
    by_cases hp : d.Paired i
    · obtain ⟨p, hp, hip⟩ := hp
      rw [lead_of_mem hp hip] at hi
      exact absurd ⟨p, hp, hi ▸ p.first_mem_edges⟩ h
    · rwa [lead_of_not_paired hp] at hi
  · rintro rfl
    exact lead_of_not_paired h

/-- No edge is led by a later one. -/
theorem lead_le (d : Diagram) (i : Nat) : d.classify.lead i ≤ i := by
  by_cases hi : d.Paired i
  · obtain ⟨p, hp, hip⟩ := hi
    rw [lead_of_mem hp hip]
    have := pair_first_lt_second hp
    rcases List.mem_pair.mp hip with rfl | rfl <;> omega
  · exact Nat.le_of_eq (lead_of_not_paired hi)

/-- Leads lead themselves. -/
theorem lead_lead (d : Diagram) (i : Nat) :
    d.classify.lead (d.classify.lead i) = d.classify.lead i := by
  by_cases hi : d.Paired i
  · obtain ⟨p, hp, hip⟩ := hi
    rw [lead_of_mem hp hip]
    exact lead_first hp
  · rw [lead_of_not_paired hi, lead_of_not_paired hi]

/-- An edge is not its own lead if it is the second of a pair. -/
theorem lead_ne_iff : d.classify.lead i ≠ i ↔ ∃ p ∈ d.classify.pairs, p.second = i := by
  constructor
  · intro h
    by_cases hi : d.Paired i
    · obtain ⟨p, hp, hip⟩ := hi
      rw [lead_of_mem hp hip] at h
      rcases List.mem_pair.mp hip with rfl | rfl
      · exact absurd rfl h
      · exact ⟨p, hp, rfl⟩
    · exact absurd (lead_of_not_paired hi) h
  · rintro ⟨p, hp, rfl⟩
    rw [lead_of_mem hp p.second_mem_edges]
    exact Nat.ne_of_lt (pair_first_lt_second hp)

end Diagram
end SchemaSynth
