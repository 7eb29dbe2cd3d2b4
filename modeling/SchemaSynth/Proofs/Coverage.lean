import SchemaSynth.Proofs.Run
import Mathlib.Data.List.Pairwise

/-! Every edge of a diagram is handled exactly once. -/
namespace SchemaSynth.Diagram
open Strategy
variable {d : Diagram} {e : RelationshipEdge} {i k : Nat}

private theorem applications_edges (d : Diagram) (policy : CollisionPolicy) :
    (d.applications (.resolve policy d) d.classify).map (·.edges) =
      d.leading.map fun x => (choose (.resolve policy d) d.classify x.1 x.2).edges x.2 := by
  rw [applications_eq_carryOut]
  exact map_carryOut (·.edges) (fun _ _ _ _ _ => rfl) _ _ _ _

/-- The rules applied, edge by edge. -/
theorem applications_rules (d : Diagram) (policy : CollisionPolicy) :
    (d.applications (.resolve policy d) d.classify).map (·.rule) =
      d.leading.map fun x => (choose (.resolve policy d) d.classify x.1 x.2).rule := by
  rw [applications_eq_carryOut]
  exact map_carryOut (·.rule) (fun _ _ _ _ _ => rfl) _ _ _ _

/-- An application carries out what suits an edge in its own turn. -/
theorem exists_of_mem_applications {policy : CollisionPolicy} {a : RuleApplication}
    (ha : a ∈ d.applications (.resolve policy d) d.classify) :
    ∃ e i s keys, d.relationships[i]? = some e ∧ d.classify.lead i = i ∧
      Suits d (.resolve policy d) i e s ∧ a = s.apply keys e i := by
  rw [applications_eq_carryOut] at ha
  obtain ⟨e, i, keys, hm, _, rfl⟩ := exists_of_mem_carryOut (P := fun _ => True)
    (fun _ _ _ _ => trivial) trivial ha
  obtain ⟨he, hl⟩ := mem_leading.mp hm
  exact ⟨e, i, _, keys, he, hl, choose_suits policy he, rfl⟩

/-- An edge in its own turn has the application of what is chosen for it. -/
theorem exists_apply_mem (policy : CollisionPolicy) (he : d.relationships[i]? = some e)
    (hl : d.classify.lead i = i) :
    ∃ keys, (choose (.resolve policy d) d.classify e i).apply keys e i ∈
      d.applications (.resolve policy d) d.classify := by
  rw [applications_eq_carryOut]
  exact exists_mem_carryOut _ _ [] (mem_leading.mpr ⟨he, hl⟩)

/-- An edge and its lead are edges of the same diagram. -/
theorem lead_lt_iff :
    d.classify.lead k < d.relationships.length ↔ k < d.relationships.length := by
  refine ⟨fun h => ?_, Nat.lt_of_le_of_lt (lead_le d k)⟩
  by_cases paired : d.Paired k
  · obtain ⟨p, hp, hk⟩ := paired
    obtain ⟨e, he, _⟩ := pair_edge hp hk
    exact (List.getElem?_eq_some_iff.mp he).1
  · rwa [lead_of_not_paired paired] at h

private theorem mem_edges_of_leading {policy : CollisionPolicy} {x : RelationshipEdge × Nat}
    (hx : x ∈ d.leading) :
    k ∈ (choose (.resolve policy d) d.classify x.1 x.2).edges x.2 ↔ d.classify.lead k = x.2 :=
  (choose_suits policy (mem_leading.mp hx).1).mem_edges (mem_leading.mp hx).1 (mem_leading.mp hx).2

private theorem mem_applications_edges (policy : CollisionPolicy) :
    k ∈ (d.applications (.resolve policy d) d.classify).flatMap (·.edges) ↔
      k < d.relationships.length := by
  rw [List.flatMap_def, applications_edges, ← List.flatMap_def, List.mem_flatMap, ← lead_lt_iff]
  constructor
  · rintro ⟨x, hx, hk⟩
    rw [(mem_edges_of_leading hx).mp hk]
    exact (List.getElem?_eq_some_iff.mp (mem_leading.mp hx).1).1
  · intro hk
    have hx : (d.relationships[d.classify.lead k], d.classify.lead k) ∈ d.leading :=
      mem_leading.mpr ⟨List.getElem?_eq_getElem hk, lead_lead d k⟩
    exact ⟨_, hx, (mem_edges_of_leading hx).mpr rfl⟩

private theorem applications_edges_nodup (policy : CollisionPolicy) :
    ((d.applications (.resolve policy d) d.classify).flatMap (·.edges)).Nodup := by
  rw [List.flatMap_def, applications_edges, ← List.flatMap_def, List.nodup_flatMap]
  constructor
  · intro x hx
    obtain ⟨he, hl⟩ := mem_leading.mp hx
    exact ((choose_suits policy he).edges_shape he hl).2.1.imp Nat.ne_of_lt
  · apply leading_sorted.imp_of_mem
    intro x y hx hy hxy k hkx hky
    rw [mem_edges_of_leading hx] at hkx
    rw [mem_edges_of_leading hy] at hky
    omega

private theorem mem_leading_or_seconds :
    k ∈ d.leading.map (·.2) ++ d.classify.pairs.map (·.second) ↔ k < d.relationships.length := by
  rw [List.mem_append]
  constructor
  · rintro (hk | hk)
    · obtain ⟨x, hx, rfl⟩ := List.mem_map.mp hk
      exact (List.getElem?_eq_some_iff.mp (mem_leading.mp hx).1).1
    · obtain ⟨p, hp, rfl⟩ := List.mem_map.mp hk
      obtain ⟨e, he, _⟩ := pair_edge hp p.second_mem_edges
      exact (List.getElem?_eq_some_iff.mp he).1
  · intro hk
    by_cases hl : d.classify.lead k = k
    · have hx : (d.relationships[k], k) ∈ d.leading :=
        mem_leading.mpr ⟨List.getElem?_eq_getElem hk, hl⟩
      exact Or.inl (List.mem_map_of_mem hx)
    · obtain ⟨p, hp, rfl⟩ := lead_ne_iff.mp hl
      exact Or.inr (List.mem_map_of_mem hp)

private theorem leading_seconds_nodup (d : Diagram) :
    (d.leading.map (·.2) ++ d.classify.pairs.map (·.second)).Nodup := by
  refine List.nodup_append.mpr ⟨leading_nodup d, pair_seconds_nodup, ?_⟩
  intro i hi j hj hij
  obtain ⟨x, hx, rfl⟩ := List.mem_map.mp hi
  obtain ⟨p, hp, rfl⟩ := List.mem_map.mp hj
  exact lead_ne_iff.mpr ⟨p, hp, hij.symm⟩ (mem_leading.mp hx).2

private theorem leading_length (d : Diagram) :
    d.leading.length + d.classify.pairs.length = d.relationships.length := by
  have hperm : (d.leading.map (·.2) ++ d.classify.pairs.map (·.second)).Perm
      (List.range d.relationships.length) := by
    refine (List.perm_ext_iff_of_nodup (leading_seconds_nodup d) List.nodup_range).mpr ?_
    intro k
    rw [mem_leading_or_seconds, List.mem_range]
  simpa using hperm.length_eq

/-- The applications stand in the order of their first edges. -/
theorem applications_sorted (d : Diagram) (policy : CollisionPolicy) :
    (d.applications (.resolve policy d) d.classify).Pairwise
      (fun a b => ∃ i j, a.edges.head? = some i ∧ b.edges.head? = some j ∧ i < j) := by
  have hsorted : ((d.applications (.resolve policy d) d.classify).map (·.edges)).Pairwise
      (fun a b => ∃ i j, a.head? = some i ∧ b.head? = some j ∧ i < j) := by
    rw [applications_edges, List.pairwise_map]
    apply leading_sorted.imp_of_mem
    intro x y hx hy hxy
    obtain ⟨hex, hlx⟩ := mem_leading.mp hx
    obtain ⟨hey, hly⟩ := mem_leading.mp hy
    exact ⟨x.2, y.2, ((choose_suits policy hex).edges_shape hex hlx).1,
      ((choose_suits policy hey).edges_shape hey hly).1, hxy⟩
  exact List.pairwise_map.mp hsorted

/-- The first edge of an application leads all of its edges. -/
theorem head?_edges {policy : CollisionPolicy} {a : RuleApplication}
    (ha : a ∈ d.applications (.resolve policy d) d.classify) (hk : k ∈ a.edges) :
    a.edges.head? = some (d.classify.lead k) := by
  obtain ⟨e, i, s, keys, he, hl, hsuits, rfl⟩ := exists_of_mem_applications ha
  rw [(hsuits.mem_edges he hl).mp hk]
  exact (hsuits.edges_shape he hl).1

/-- The applications before that of an edge are those of the edges whose lead comes earlier. -/
theorem mem_before_iff {policy : CollisionPolicy} {a b : RuleApplication}
    {before after : List RuleApplication}
    (hsplit : d.applications (.resolve policy d) d.classify = before ++ a :: after)
    (hb : b ∈ d.applications (.resolve policy d) d.classify) (hi : i ∈ a.edges) (hk : k ∈ b.edges) :
    b ∈ before ↔ d.classify.lead k < d.classify.lead i := by
  have ha : a ∈ d.applications (.resolve policy d) d.classify := by simp [hsplit]
  have hha := head?_edges ha hi
  have hhb := head?_edges hb hk
  have hsorted := applications_sorted d policy
  rw [hsplit, List.pairwise_append] at hsorted
  obtain ⟨_, hafter, hbefore⟩ := hsorted
  constructor
  · intro hm
    obtain ⟨m, n, hm, hn, hlt⟩ := hbefore b hm a List.mem_cons_self
    rw [hhb, Option.some.injEq] at hm
    rw [hha, Option.some.injEq] at hn
    omega
  · intro hlt
    rw [hsplit] at hb
    rcases List.mem_append.mp hb with hm | hm
    · exact hm
    rcases List.mem_cons.mp hm with rfl | hm
    · rw [hha, Option.some.injEq] at hhb
      omega
    · obtain ⟨m, n, hm, hn, hlt'⟩ := (List.pairwise_cons.mp hafter).1 b hm
      rw [hha, Option.some.injEq] at hm
      rw [hhb, Option.some.injEq] at hn
      omega

/-- Two applications that use up one edge are the same. -/
theorem application_unique {policy : CollisionPolicy} {a b : RuleApplication}
    (ha : a ∈ d.applications (.resolve policy d) d.classify)
    (hb : b ∈ d.applications (.resolve policy d) d.classify)
    (hka : k ∈ a.edges) (hkb : k ∈ b.edges) : a = b := by
  have hsymm : Std.Symm (Function.onFun List.Disjoint fun a : RuleApplication => a.edges) :=
    ⟨fun _ _ h _ ha hb => h hb ha⟩
  by_contra hne
  exact (List.nodup_flatMap.mp (applications_edges_nodup policy)).2.forall ha hb hne hka hkb

/-- The edges of a pair make the same choice. -/
theorem choose_lead {f : RelationshipEdge} (policy : CollisionPolicy)
    (he : d.relationships[i]? = some e) (hf : d.relationships[d.classify.lead i]? = some f) :
    choose (.resolve policy d) d.classify f (d.classify.lead i) =
      choose (.resolve policy d) d.classify e i := by
  by_cases paired : d.Paired i
  · obtain ⟨p, hp, hi⟩ := paired
    rw [lead_of_mem hp hi] at hf ⊢
    obtain ⟨source, target, hs, hsn, htn⟩ := (choose_suits policy he).of_pair he hp hi
    obtain ⟨source', target', hs', hsn', htn'⟩ :=
      (choose_suits policy hf).of_pair hf hp p.first_mem_edges
    rw [hs, hs', Option.some.inj (hsn.symm.trans hsn'), Option.some.inj (htn.symm.trans htn')]
  · rw [lead_of_not_paired paired] at hf ⊢
    rw [Option.some.inj (he.symm.trans hf)]

/-- The application of an edge carries out what suits the edge. -/
theorem exists_application (policy : CollisionPolicy) (he : d.relationships[i]? = some e) :
    ∃ a ∈ d.applications (.resolve policy d) d.classify, i ∈ a.edges ∧ ∃ s f key,
      Suits d (.resolve policy d) i e s ∧ a.rule = s.rule ∧ a.statements = s.statements f key := by
  have hlt : d.classify.lead i < d.relationships.length :=
    lead_lt_iff.mpr (List.getElem?_eq_some_iff.mp he).1
  have hf : d.relationships[d.classify.lead i]? = some d.relationships[d.classify.lead i] :=
    List.getElem?_eq_getElem hlt
  obtain ⟨keys, hm⟩ := exists_apply_mem policy hf (lead_lead d i)
  have hsuits := choose_suits policy he
  rw [← choose_lead policy he hf] at hsuits
  refine ⟨_, hm, ?_, _, _, _, hsuits, rfl, rfl⟩
  exact ((choose_suits policy hf).mem_edges hf (lead_lead d i)).mpr rfl

/-- Each edge is used up by one application and by no other, two at a time only by the recursive
rule, and the applications stand in the order of their first edges. -/
theorem applications_cover_edges (d : Diagram) (policy : CollisionPolicy) :
    let applications := d.applications (.resolve policy d) d.classify
    (applications.flatMap (·.edges)).Perm (List.range d.relationships.length) ∧
      (∀ a ∈ applications, a.edges.Pairwise (· < ·) ∧
        a.edges.length = if a.rule = .recursiveManyToMany then 2 else 1) ∧
      applications.Pairwise (fun a b => ∃ i j, a.edges.head? = some i ∧ b.edges.head? = some j ∧ i < j) ∧
      applications.length + d.classify.pairs.length = d.relationships.length := by
  refine ⟨(List.perm_ext_iff_of_nodup (applications_edges_nodup policy) List.nodup_range).mpr ?_,
    ?_, applications_sorted d policy, ?_⟩
  · intro k
    rw [mem_applications_edges, List.mem_range]
  · intro a ha
    obtain ⟨e, i, s, keys, he, hl, hsuits, rfl⟩ := exists_of_mem_applications ha
    exact (hsuits.edges_shape he hl).2
  · have hlen := congrArg List.length (applications_edges d policy)
    rw [List.length_map, List.length_map] at hlen
    rw [hlen]
    exact leading_length d

def interleavedPairs : Diagram where
  classes := [⟨"s", "S", [], []⟩, ⟨"t", "T", [], []⟩, ⟨"u", "U", [], []⟩, ⟨"v", "V", [], []⟩]
  relationships := [⟨.association, "s", "t", .one, .many, ""⟩,
    ⟨.association, "u", "v", .one, .many, ""⟩, ⟨.association, "s", "t", .one, .many, ""⟩,
    ⟨.association, "u", "v", .one, .many, ""⟩]

/-- Two pairs whose edges are drawn in turns are covered by two applications. -/
theorem interleavedPairs_cover_edges :
    let applications := interleavedPairs.applications (.resolve .suffix interleavedPairs)
      interleavedPairs.classify
    applications.map (·.edges) = [[0, 2], [1, 3]] ∧
      (applications.flatMap (·.edges)).Perm (List.range 4) ∧
      (∃ a ∈ applications, a.edges = [0, 2] ∧ a.edges.Pairwise (· < ·) ∧
        a.rule = .recursiveManyToMany ∧ a.edges.length = 2) := by
  have hmaps : (interleavedPairs.applications (.resolve .suffix interleavedPairs)
      interleavedPairs.classify).map (·.edges) = [[0, 2], [1, 3]] := by decide
  have hmem : ∃ a ∈ interleavedPairs.applications (.resolve .suffix interleavedPairs)
      interleavedPairs.classify, a.edges = [0, 2] ∧ a.rule = .recursiveManyToMany := by decide
  obtain ⟨hperm, hall, _, _⟩ := applications_cover_edges interleavedPairs .suffix
  obtain ⟨a, ha, hedges, hrule⟩ := hmem
  obtain ⟨hsorted, hlength⟩ := hall a ha
  exact ⟨hmaps, hperm, a, ha, hedges, hsorted, hrule, by rw [hlength, if_pos hrule]⟩

end SchemaSynth.Diagram
