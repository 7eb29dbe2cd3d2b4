import SchemaSynth.Proofs.RecursivePairs
import Mathlib.Data.List.Sort

/-! Join classes and recursive pairs, told from the relationships that are drawn. -/
namespace SchemaSynth.Diagram
variable {d : Diagram} {s t : String} {i j k : Nat} {p : RecursivePair}

/-- The relationship at a position, of whatever kind, runs from one instance of a class to many of
another. -/
def DrawnOneToMany (d : Diagram) (s t : String) (i : Nat) : Prop :=
  ∃ e, d.relationships[i]? = some e ∧ e.source = s ∧ e.target = t ∧
    e.multiplicityFrom = .one ∧ e.multiplicityTo = .many

/-- Two different classes have just the two positions between them. -/
structure JustTwo (d : Diagram) (s t : String) (i j : Nat) : Prop where
  source_mem : s ∈ d.ids
  target_mem : t ∈ d.ids
  different : s ≠ t
  ordered : i < j
  drawn_iff : ∀ k, d.DrawnOneToMany s t k ↔ k = i ∨ k = j

private theorem mem_links_iff_drawn :
    k ∈ d.links s t ↔ (s ∈ d.ids ∧ t ∈ d.ids ∧ s ≠ t) ∧ d.DrawnOneToMany s t k := by
  simp only [mem_links, qualifies, RelationshipEdge.isSelfReference, Multiplicity.isOne,
    Multiplicity.isMany, Bool.and_eq_true, Bool.not_eq_true', beq_eq_false_iff_ne, decide_eq_true_eq,
    List.contains_iff_mem]
  constructor
  · rintro ⟨e, he, ⟨⟨⟨⟨hne, hone⟩, hmany⟩, hs⟩, ht⟩, rfl, rfl⟩
    exact ⟨⟨hs, ht, hne⟩, e, he, rfl, rfl, hone, hmany⟩
  · rintro ⟨⟨hs, ht, hne⟩, e, he, rfl, rfl, hone, hmany⟩
    exact ⟨e, he, ⟨⟨⟨⟨hne, hone⟩, hmany⟩, hs⟩, ht⟩, rfl, rfl⟩

private theorem links_eq_pair_iff : d.links s t = [i, j] ↔ d.JustTwo s t i j := by
  constructor
  · intro h
    have hsorted := links_sorted (d := d) (s := s) (t := t)
    rw [h] at hsorted
    have hmem (k : Nat) : (s ∈ d.ids ∧ t ∈ d.ids ∧ s ≠ t) ∧ d.DrawnOneToMany s t k ↔ k = i ∨ k = j := by
      rw [← mem_links_iff_drawn, h, List.mem_pair]
    obtain ⟨hs, ht, hne⟩ := ((hmem i).mpr (Or.inl rfl)).1
    refine ⟨hs, ht, hne, by simpa using hsorted, fun k => ?_⟩
    rw [← hmem k, and_iff_right ⟨hs, ht, hne⟩]
  · intro h
    have hpair : [i, j].Pairwise (· < ·) := by simpa using h.ordered
    refine links_sorted.eq_of_mem_iff hpair fun k => ?_
    rw [mem_links_iff_drawn, List.mem_pair, h.drawn_iff k]
    exact and_iff_right ⟨h.source_mem, h.target_mem, h.different⟩

private theorem mem_pairs_iff_justTwo :
    p ∈ d.classify.pairs ↔ d.JustTwo p.source p.target p.first p.second :=
  mem_pairs.trans links_eq_pair_iff

private theorem pairs_edges_nodup (d : Diagram) : (d.classify.pairs.flatMap (·.edges)).Nodup := by
  rw [List.nodup_flatMap]
  constructor
  · intro p hp
    simpa [RecursivePair.edges] using Nat.ne_of_lt (pair_first_lt_second hp)
  · exact pairs_nodup.imp_of_mem fun hp hq hne _ hip hiq => hne (pair_unique hp hq hip hiq)

private theorem pairs_ends_nodup (d : Diagram) :
    (d.classify.pairs.map fun p => (p.source, p.target)).Nodup := by
  refine List.Nodup.map_on ?_ pairs_nodup
  intro p hp q hq hends
  obtain ⟨hs, ht⟩ := Prod.mk.inj hends
  have hedges : p.edges = q.edges := by rw [← mem_pairs.mp hp, ← mem_pairs.mp hq, hs, ht]
  exact pair_unique hp hq p.first_mem_edges (hedges ▸ p.first_mem_edges)

/-- A class is a join class if just two relationships of one different class make it one, and those
two are in the pair of the two classes. No edge is in two pairs, and each pair is there once, in the
order of the first edges. -/
theorem classification_exact (d : Diagram) :
    (∀ t, d.classify.isIntermediary t = true ↔ ∃ s i j, d.JustTwo s t i j) ∧
    (∀ k s t i j, d.classify.pairFor? k = some ⟨s, t, i, j⟩ ↔ d.JustTwo s t i j ∧ (k = i ∨ k = j)) ∧
    (∀ k, d.classify.pairFor? k = none ↔ ¬ ∃ s t i j, d.JustTwo s t i j ∧ (k = i ∨ k = j)) ∧
    (d.classify.pairs.flatMap (·.edges)).Nodup ∧
    (∀ s t i j, ⟨s, t, i, j⟩ ∈ d.classify.pairs ↔ d.JustTwo s t i j) ∧
    (d.classify.pairs.map fun p => (p.source, p.target)).Nodup ∧
    d.classify.pairs.Pairwise (fun p q => p.first < q.first) := by
  have hpair (k : Nat) (p : RecursivePair) : d.classify.pairFor? k = some p ↔
      d.JustTwo p.source p.target p.first p.second ∧ (k = p.first ∨ k = p.second) := by
    rw [pairFor?_eq_some_iff, mem_pairs_iff_justTwo, RecursivePair.edges, List.mem_pair]
  refine ⟨fun t => ?_, fun k s t i j => hpair k ⟨s, t, i, j⟩, fun k => ?_, pairs_edges_nodup d,
    fun _ _ _ _ => mem_pairs_iff_justTwo, pairs_ends_nodup d, pairs_sorted⟩
  · rw [isIntermediary_iff]
    constructor
    · rintro ⟨p, hp, rfl⟩
      exact ⟨p.source, p.first, p.second, mem_pairs_iff_justTwo.mp hp⟩
    · rintro ⟨s, i, j, h⟩
      exact ⟨⟨s, t, i, j⟩, mem_pairs_iff_justTwo.mpr h, rfl⟩
  · rw [← Option.not_isSome_iff_eq_none, not_iff_not, Option.isSome_iff_exists]
    constructor
    · rintro ⟨p, hp⟩
      exact ⟨p.source, p.target, p.first, p.second, (hpair k p).mp hp⟩
    · rintro ⟨s, t, i, j, h⟩
      exact ⟨⟨s, t, i, j⟩, (hpair k ⟨s, t, i, j⟩).mpr h⟩

def sharedJoinClass : Diagram where
  classes := [⟨"r", "R", [], []⟩, ⟨"s", "S", [], []⟩, ⟨"t", "T", [], []⟩, ⟨"u", "U", [], []⟩]
  relationships := [⟨.association, "r", "t", .one, .many, ""⟩,
    ⟨.composition, "s", "t", .one, .many, ""⟩, ⟨.association, "r", "t", .one, .many, ""⟩,
    ⟨.association, "s", "t", .one, .many, ""⟩, ⟨.association, "t", "u", .one, .many, ""⟩,
    ⟨.association, "t", "u", .one, .many, ""⟩, ⟨.association, "t", "u", .one, .many, ""⟩]

example : sharedJoinClass.classify.pairs = [⟨"r", "t", 0, 2⟩, ⟨"s", "t", 1, 3⟩] := by decide

end SchemaSynth.Diagram
