import SchemaSynth.Proofs.Reachability

/-! The generalizations that are reported lie on cycles, and no cycle is without one. -/
namespace SchemaSynth
open Inheritance

namespace Diagram
variable {d : Diagram} {s t u : String} {i j : Nat} {is js cycle positions : List Nat}

/-- The relationship at a position is a generalization from one class to a different one, whether
the diagram has the two or not. -/
structure InheritsAt (d : Diagram) (i : Nat) (e : RelationshipEdge) : Prop where
  at_position : d.relationships[i]? = some e
  kind : e.kind = .generalization
  different : e.source ≠ e.target

/-- Generalizations one after the other, by their positions. -/
inductive Walk (d : Diagram) : String → String → List Nat → Prop
  | nil (s : String) : Walk d s s []
  | cons {i : Nat} {e : RelationshipEdge} {t : String} {is : List Nat} (edge : d.InheritsAt i e)
      (rest : Walk d e.target t is) : Walk d e.source t (i :: is)

/-- One generalization at least, and back to where it starts. -/
def IsCycle (d : Diagram) (cycle : List Nat) : Prop :=
  cycle ≠ [] ∧ ∃ s, d.Walk s s cycle

def LeavesOnce (d : Diagram) (cycle : List Nat) : Prop :=
  (cycle.map fun i => (d.relationships[i]?).map (·.source)).Nodup

def Acyclic (d : Diagram) : Prop :=
  ∀ cycle, ¬ d.IsCycle cycle

def without (d : Diagram) (positions : List Nat) : Diagram where
  classes := d.classes
  relationships :=
    (d.relationships.zipIdx.filter fun (_, i) => !positions.contains i).map (·.1)

private theorem inheritsAt_iff {e : RelationshipEdge} :
    d.InheritsAt i e ↔ d.relationships[i]? = some e ∧ isInheritance e = true := by
  simp only [isInheritance, RelationshipEdge.isSelfReference, Bool.and_eq_true, decide_eq_true_eq,
    Bool.not_eq_true', beq_eq_false_iff_ne]
  constructor
  · rintro ⟨he, hkind, hne⟩
    exact ⟨he, hkind, hne⟩
  · rintro ⟨he, hkind, hne⟩
    exact ⟨he, hkind, hne⟩

section Walks

private theorem walk_append (h : d.Walk s t is) (h' : d.Walk t u js) : d.Walk s u (is ++ js) := by
  induction h with
  | nil => exact h'
  | cons edge _ ih => exact .cons edge (ih h')

private theorem Walk.split (h : d.Walk s u (is ++ js)) : ∃ t, d.Walk s t is ∧ d.Walk t u js := by
  induction is generalizing s with
  | nil => exact ⟨s, .nil s, h⟩
  | cons i is ih =>
    cases h with
    | cons edge rest =>
      obtain ⟨t, his, hjs⟩ := ih rest
      exact ⟨t, .cons edge his, hjs⟩

private theorem IsCycle.around (h : d.IsCycle cycle) (hi : i ∈ cycle) :
    ∃ e is, d.InheritsAt i e ∧ d.Walk e.target e.source is ∧ is ⊆ cycle := by
  obtain ⟨_, s, hwalk⟩ := h
  obtain ⟨before, after, rfl⟩ := List.append_of_mem hi
  obtain ⟨t, hbefore, hrest⟩ := hwalk.split
  cases hrest with
  | cons edge hafter =>
    refine ⟨_, after ++ before, edge, walk_append hafter hbefore, ?_⟩
    intro j hj
    rcases List.mem_append.mp hj with hj | hj
    · exact List.mem_append_right _ (List.mem_cons_of_mem _ hj)
    · exact List.mem_append_left _ hj

private theorem Walk.of_without (h : (d.without positions).Walk s t is) :
    ∃ js, d.Walk s t js ∧ (∀ j ∈ js, j ∉ positions) ∧ js.length = is.length := by
  induction h with
  | nil s => exact ⟨[], .nil s, by simp, rfl⟩
  | @cons i e t is edge _ ih =>
    obtain ⟨js, hwalk, hjs, hlength⟩ := ih
    obtain ⟨⟨e', j⟩, hmem, rfl⟩ := List.mem_map.mp (List.mem_of_getElem? edge.at_position)
    obtain ⟨hmem, hj⟩ := List.mem_filter.mp hmem
    have hedge : d.InheritsAt j e' := ⟨List.mem_zipIdx_iff_getElem?.mp hmem, edge.kind, edge.different⟩
    refine ⟨j :: js, .cons hedge hwalk, ?_, by rw [List.length_cons, List.length_cons, hlength]⟩
    exact List.forall_mem_cons.mpr ⟨by simpa using hj, hjs⟩

end Walks

def linksOf (es : List RelationshipEdge) : Links :=
  ((es.filter isInheritance).map fun e => (e.source, e.target)).reverse

private theorem linksOf_cons (e : RelationshipEdge) (es : List RelationshipEdge) :
    linksOf (e :: es) = linksOf es ++ if isInheritance e then [(e.source, e.target)] else [] := by
  by_cases he : isInheritance e = true <;> simp [linksOf, he]

/-- The links of the first edges are those of the generalizations among them. -/
theorem linked_linksOf_iff :
    Linked (linksOf (d.relationships.take i)) s t ↔
      ∃ j < i, ∃ e, d.InheritsAt j e ∧ e.source = s ∧ e.target = t := by
  simp only [Linked, linksOf, List.mem_reverse, List.mem_map, List.mem_filter, Prod.mk.injEq,
    List.mem_take_iff_getElem, inheritsAt_iff]
  constructor
  · rintro ⟨e, ⟨⟨j, hj, rfl⟩, he⟩, hends⟩
    exact ⟨j, by omega, _, ⟨List.getElem?_eq_getElem _, he⟩, hends⟩
  · rintro ⟨j, hj, e, ⟨hget, he⟩, hends⟩
    obtain ⟨hlt, rfl⟩ := List.getElem?_eq_some_iff.mp hget
    exact ⟨_, ⟨⟨j, by omega, rfl⟩, he⟩, hends⟩

private theorem mem_cyclesFrom_cons {links : Links} {e : RelationshipEdge} {n : Nat}
    {rest : List (RelationshipEdge × Nat)} {c : InheritanceCycle} :
    c ∈ cyclesFrom links ((e, n) :: rest) ↔
      c.edge = n ∧ isInheritance e = true ∧ path? links e.target e.source = some c.path ∨
      c ∈ cyclesFrom ((if isInheritance e then [(e.source, e.target)] else []) ++ links) rest := by
  obtain ⟨edge, path⟩ := c
  rw [cyclesFrom]
  by_cases he : isInheritance e = true
  · cases hpath : path? links e.target e.source <;> simp [he, eq_comm]
  · simp [he]

private theorem mem_cyclesFrom {links : Links} {es : List RelationshipEdge} {n : Nat}
    {c : InheritanceCycle} :
    c ∈ cyclesFrom links (es.zipIdx n) ↔ ∃ k e, c.edge = n + k ∧ es[k]? = some e ∧
      isInheritance e = true ∧
      path? (linksOf (es.take k) ++ links) e.target e.source = some c.path := by
  induction es generalizing links n with
  | nil => simp [cyclesFrom]
  | cons e es ih =>
    rw [List.zipIdx_cons, mem_cyclesFrom_cons, ih]
    refine (or_congr ?_ (exists_congr fun k => ?_)).trans Nat.or_exists_add_one
    · simp [linksOf]
    · simp only [List.getElem?_cons_succ, List.take_succ_cons, linksOf_cons, List.append_assoc,
        Nat.add_right_comm n 1 k, Nat.add_assoc]

/-- An edge is reported if it is a generalization whose child leads to its parent before it. -/
theorem mem_inheritanceCycles {c : InheritanceCycle} :
    c ∈ d.inheritanceCycles ↔ ∃ e, d.InheritsAt c.edge e ∧
      path? (linksOf (d.relationships.take c.edge)) e.target e.source = some c.path := by
  rw [inheritanceCycles, mem_cyclesFrom]
  simp only [Nat.zero_add, List.append_nil, inheritsAt_iff]
  constructor
  · rintro ⟨_, e, rfl, he, hkind, hpath⟩
    exact ⟨e, ⟨he, hkind⟩, hpath⟩
  · rintro ⟨e, ⟨he, hkind⟩, hpath⟩
    exact ⟨c.edge, e, rfl, he, hkind, hpath⟩

private theorem exists_walk_of_links {path : List String}
    (h : (s :: path).IsChain (Linked (linksOf (d.relationships.take i))))
    (hlast : (s :: path).getLast? = some t) :
    ∃ is, d.Walk s t is ∧ (∀ j ∈ is, j < i) ∧
      (is.map fun j => (d.relationships[j]?).map (·.source)) = (s :: path).dropLast.map some := by
  induction path generalizing s with
  | nil =>
    obtain rfl : s = t := by simpa using hlast
    exact ⟨[], .nil s, by simp, rfl⟩
  | cons u path ih =>
    obtain ⟨hlink, hrest⟩ := List.isChain_cons_cons.mp h
    obtain ⟨j, hj, e, hedge, rfl, rfl⟩ := linked_linksOf_iff.mp hlink
    obtain ⟨is, hwalk, his, hsources⟩ := ih hrest (by simpa using hlast)
    refine ⟨j :: is, .cons hedge hwalk, List.forall_mem_cons.mpr ⟨hj, his⟩, ?_⟩
    rw [List.map_cons, hsources, hedge.at_position, List.dropLast_cons_cons]
    rfl

private theorem exists_cycle_of_reported {c : InheritanceCycle} (hc : c ∈ d.inheritanceCycles) :
    ∃ cycle, c.edge ∈ cycle ∧ d.IsCycle cycle ∧ d.LeavesOnce cycle := by
  obtain ⟨e, hedge, hpath⟩ := mem_inheritanceCycles.mp hc
  have hroute := route_of_path? hpath
  obtain ⟨way, hway⟩ := List.head?_eq_some_iff.mp hroute.head
  rw [hway] at hroute
  obtain ⟨is, hwalk, _, hsources⟩ := exists_walk_of_links hroute.linked hroute.last
  refine ⟨c.edge :: is, List.mem_cons_self, ⟨List.cons_ne_nil _ _, _, .cons hedge hwalk⟩, ?_⟩
  have hnodup := hroute.nodup
  rw [← List.dropLast_append_getLast? _ hroute.last, List.nodup_append] at hnodup
  rw [LeavesOnce, List.map_cons, hsources, hedge.at_position]
  refine List.nodup_cons.mpr ⟨fun hmem => ?_, hnodup.1.map fun _ _ => Option.some.inj⟩
  obtain ⟨s, hs, hse⟩ := List.mem_map.mp hmem
  exact hnodup.2.2 s hs e.source (List.mem_singleton_self _) (Option.some.inj hse)

private theorem Walk.reaches_before {e : RelationshipEdge} (h : d.Walk s e.source is) (hedge : d.InheritsAt i e)
    (hle : ∀ j ∈ is, j ≤ i) :
    Relation.ReflTransGen (Linked (linksOf (d.relationships.take i))) s e.source := by
  generalize ht : e.source = t at h ⊢
  induction h with
  | nil => exact .refl
  | @cons j e' t is edge _ ih =>
    obtain ⟨hj, his⟩ := List.forall_mem_cons.mp hle
    rcases Nat.lt_or_eq_of_le hj with hj | rfl
    · exact .head (linked_linksOf_iff.mpr ⟨j, hj, e', edge, rfl, rfl⟩) (ih his ht)
    · obtain rfl : e = e' := Option.some.inj (hedge.at_position.symm.trans edge.at_position)
      rw [ht]

private theorem IsCycle.exists_reported (h : d.IsCycle cycle) :
    ∃ i ∈ cycle, i ∈ d.inheritanceCycles.map (·.edge) := by
  obtain ⟨i, hi⟩ := Option.isSome_iff_exists.mp (List.isSome_max?_of_ne_nil h.1)
  obtain ⟨hi, hmax⟩ := List.max?_eq_some_iff.mp hi
  obtain ⟨e, is, hedge, hwalk, hsub⟩ := h.around hi
  have hreaches := hwalk.reaches_before hedge fun j hj => hmax j (hsub hj)
  obtain ⟨path, hpath⟩ := Option.isSome_iff_exists.mp (path?_isSome_iff.mpr hreaches)
  exact ⟨i, hi, List.mem_map.mpr ⟨⟨i, path⟩, mem_inheritanceCycles.mpr ⟨e, hedge, hpath⟩, rfl⟩⟩

/-- Every reported edge is one of a cycle that leaves no class twice, and every cycle, however often
it comes by a class, has a reported edge. -/
theorem reported_edges_break_cycles (d : Diagram) :
    let reported := d.inheritanceCycles.map (·.edge)
    (∀ i ∈ reported, ∃ cycle, i ∈ cycle ∧ d.IsCycle cycle ∧ d.LeavesOnce cycle) ∧
    (∀ cycle, d.IsCycle cycle → ∃ i ∈ cycle, i ∈ reported) ∧
    (d.without reported).Acyclic ∧
    (d.inheritanceCycles = [] ↔ d.Acyclic) := by
  refine ⟨?_, fun _ => IsCycle.exists_reported, ?_, ?_⟩
  · intro i hi
    obtain ⟨c, hc, rfl⟩ := List.mem_map.mp hi
    exact exists_cycle_of_reported hc
  · rintro cycle ⟨hne, s, hwalk⟩
    obtain ⟨js, hwalk, hjs, hlength⟩ := hwalk.of_without
    have hjsne : js ≠ [] := by
      rintro rfl
      exact hne (List.eq_nil_of_length_eq_zero hlength.symm)
    obtain ⟨j, hj, hreported⟩ := IsCycle.exists_reported ⟨hjsne, s, hwalk⟩
    exact hjs j hj hreported
  · constructor
    · intro hnone cycle hcycle
      obtain ⟨i, _, hi⟩ := hcycle.exists_reported
      rw [hnone] at hi
      cases hi
    · intro hacyclic
      refine List.eq_nil_iff_forall_not_mem.mpr fun c hc => ?_
      obtain ⟨cycle, _, hcycle, _⟩ := exists_cycle_of_reported hc
      exact hacyclic cycle hcycle

def twoCycles : Diagram where
  classes := []
  relationships := [.bare .generalization "a" "b", .bare .generalization "b" "a",
    .bare .generalization "b" "c", .bare .generalization "c" "b", .bare .generalization "c" "b"]

/-- Both edges back from the second class are reported. Either closes a cycle with the edge there. -/
theorem twoCycles_edges_reported :
    twoCycles.inheritanceCycles.map (·.edge) = [1, 3, 4] ∧
      (∃ cycle, 4 ∈ cycle ∧ twoCycles.IsCycle cycle ∧ twoCycles.LeavesOnce cycle) ∧
      twoCycles.IsCycle [2, 4, 2, 3] ∧
      ∃ i ∈ [2, 4, 2, 3], i ∈ twoCycles.inheritanceCycles.map (·.edge) := by
  obtain ⟨hon, hcut, _, _⟩ := reported_edges_break_cycles twoCycles
  have hreported : twoCycles.inheritanceCycles.map (·.edge) = [1, 3, 4] := by decide
  have hedge (i : Nat) (s t : String)
      (h : twoCycles.relationships[i]? = some (.bare .generalization s t)) (hst : s ≠ t) :
      twoCycles.InheritsAt i (.bare .generalization s t) := ⟨h, rfl, hst⟩
  have hthere := hedge 2 "b" "c" rfl (by decide)
  have hcycle : twoCycles.IsCycle [2, 4, 2, 3] :=
    ⟨by decide, "b", .cons hthere (.cons (hedge 4 "c" "b" rfl (by decide))
      (.cons hthere (.cons (hedge 3 "c" "b" rfl (by decide)) (.nil "b"))))⟩
  exact ⟨hreported, hon 4 (by rw [hreported]; decide), hcycle, hcut _ hcycle⟩

end Diagram
end SchemaSynth
