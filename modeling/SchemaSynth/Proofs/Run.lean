import SchemaSynth.Proofs.Choice
import SchemaSynth.Synthesis.Application

/-! A run passes over just the second edges of the recursive pairs. -/
namespace SchemaSynth
open Strategy Diagram
variable {d : Diagram} {policy : CollisionPolicy} {e : RelationshipEdge} {n : Nat}

namespace Progress

/-- Of the edges from a position on, those are used up whose lead stands before it. -/
def UsedTo (d : Diagram) (p : Progress) (n : Nat) : Prop :=
  ∀ i, n ≤ i → (i ∈ p.used ↔ d.classify.lead i < n)

private theorem usedTo_start (d : Diagram) : start.UsedTo d 0 := by
  intro i _
  simp [start]

private theorem UsedTo.pass {p : Progress} (h : p.UsedTo d n) (hn : n ∈ p.used) : p.UsedTo d (n + 1) := by
  intro i hi
  have hlt : d.classify.lead n < n := (h n (Nat.le_refl n)).mp hn
  have hne : d.classify.lead i ≠ n := by
    intro he
    have := lead_lead d i
    rw [he] at this
    omega
  rw [h i (by omega)]
  omega

private theorem UsedTo.lead_eq {p : Progress} (h : p.UsedTo d n) (hn : n ∉ p.used) :
    d.classify.lead n = n := by
  have := lead_le d n
  have := mt (h n (Nat.le_refl n)).mpr hn
  omega

private theorem UsedTo.handle {p : Progress} (h : p.UsedTo d n) (hn : n ∉ p.used)
    (he : d.relationships[n]? = some e) :
    (p.after n (choose (.resolve policy d) d.classify e n)).UsedTo d (n + 1) := by
  intro i hi
  have hedges := (choose_suits policy he).mem_edges (j := i) he (h.lead_eq hn)
  simp only [after, List.mem_append, hedges, h i (by omega)]
  omega

end Progress

namespace Diagram

/-- The edges that are handled in their own turn, with their positions. -/
def leading (d : Diagram) : List (RelationshipEdge × Nat) :=
  d.relationships.zipIdx.filter fun (_, i) => d.classify.lead i == i

def carryOut (names : TableNames) (classification : Classification) (keys : PartKeys) :
    List (RelationshipEdge × Nat) → List RuleApplication
  | [] => []
  | (e, i) :: rest =>
    let s := choose names classification e i
    s.apply keys e i :: carryOut names classification (s.keysAfter keys) rest

private theorem applyFrom_eq_carryOut (before es : List RelationshipEdge)
    (hd : d.relationships = before ++ es) (p : Progress) (h : p.UsedTo d before.length) :
    applyFrom (.resolve policy d) d.classify p (es.zipIdx before.length) =
      carryOut (.resolve policy d) d.classify p.keys
        ((es.zipIdx before.length).filter fun (_, i) => d.classify.lead i == i) := by
  induction es generalizing before p with
  | nil => rfl
  | cons e es ih =>
    have hnext : d.relationships = (before ++ [e]) ++ es := by simpa using hd
    have hlen : (before ++ [e]).length = before.length + 1 := by simp
    have he : d.relationships[before.length]? = some e := by simp [hd]
    rw [List.zipIdx_cons, applyFrom]
    by_cases hu : before.length ∈ p.used
    · have hlead : d.classify.lead before.length ≠ before.length :=
        Nat.ne_of_lt ((h _ (Nat.le_refl _)).mp hu)
      rw [if_pos (by simpa using hu), List.filter_cons_of_neg (by simpa using hlead), ← hlen]
      exact ih _ hnext p (hlen ▸ h.pass hu)
    · rw [if_neg (by simpa using hu), List.filter_cons_of_pos (by simpa using h.lead_eq hu),
        carryOut, ← hlen]
      have hrest := ih _ hnext
        (p.after before.length (choose (.resolve policy d) d.classify e before.length))
        (hlen ▸ h.handle hu he)
      exact congrArg (List.cons _) hrest

/-- Marking edges as used up comes to leaving out the second edges of pairs beforehand. -/
theorem applications_eq_carryOut (d : Diagram) (policy : CollisionPolicy) :
    d.applications (.resolve policy d) d.classify =
      carryOut (.resolve policy d) d.classify [] d.leading :=
  applyFrom_eq_carryOut [] d.relationships rfl .start (Progress.usedTo_start d)

/-- The edges handled in their own turn are those that lead themselves. -/
theorem mem_leading : (e, n) ∈ d.leading ↔ d.relationships[n]? = some e ∧ d.classify.lead n = n := by
  simp [leading, List.mem_zipIdx_iff_getElem?]

/-- Edges are handled in the order of the diagram. -/
theorem leading_sorted : d.leading.Pairwise (fun a b => a.2 < b.2) :=
  (zipIdx_sorted d.relationships 0).sublist List.filter_sublist

/-- No edge is handled twice. -/
theorem leading_nodup (d : Diagram) : (d.leading.map (·.2)).Nodup :=
  List.pairwise_map.mpr (leading_sorted.imp Nat.ne_of_lt)

/-- What does not depend on the keys of parts can be read off the edges one by one. -/
theorem map_carryOut {α : Type} (f : RuleApplication → α)
    (hf : ∀ keys keys' e i (s : Strategy), f (s.apply keys e i) = f (s.apply keys' e i))
    (names : TableNames) (classification : Classification) (keys : PartKeys)
    (es : List (RelationshipEdge × Nat)) :
    (carryOut names classification keys es).map f =
      es.map fun x => f ((choose names classification x.1 x.2).apply [] x.1 x.2) := by
  induction es generalizing keys with
  | nil => rfl
  | cons x es ih =>
    rw [carryOut, List.map_cons, List.map_cons, ih]
    exact congrArg (· :: _) (hf _ _ _ _ _)

/-- An application is that of an edge, with keys that have what every step keeps. -/
theorem exists_of_mem_carryOut {P : PartKeys → Prop} {classification : Classification}
    {names : TableNames} {keys : PartKeys} {es : List (RelationshipEdge × Nat)}
    (hstep : ∀ keys, ∀ x ∈ es, P keys → P (keysAfter keys (choose names classification x.1 x.2)))
    (hkeys : P keys) {a : RuleApplication} (ha : a ∈ carryOut names classification keys es) :
    ∃ e i keys', (e, i) ∈ es ∧ P keys' ∧ a = (choose names classification e i).apply keys' e i := by
  induction es generalizing keys with
  | nil => cases ha
  | cons x es ih =>
    rcases List.mem_cons.mp ha with rfl | ha
    · exact ⟨x.1, x.2, keys, List.mem_cons_self, hkeys, rfl⟩
    · obtain ⟨e, i, keys', hm, h⟩ := ih
        (fun keys y hy => hstep keys y (List.mem_cons_of_mem _ hy))
        (hstep keys x List.mem_cons_self hkeys) ha
      exact ⟨e, i, keys', List.mem_cons_of_mem _ hm, h⟩

/-- Every edge that is handled in its own turn has its application. -/
theorem exists_mem_carryOut (names : TableNames) (classification : Classification)
    (keys : PartKeys) {es : List (RelationshipEdge × Nat)} (h : (e, n) ∈ es) :
    ∃ keys', (choose names classification e n).apply keys' e n ∈
      carryOut names classification keys es := by
  induction es generalizing keys with
  | nil => cases h
  | cons x es ih =>
    rcases List.mem_cons.mp h with rfl | h
    · exact ⟨keys, List.mem_cons_self⟩
    · obtain ⟨keys', hm⟩ := ih (keysAfter keys (choose names classification x.1 x.2)) h
      exact ⟨keys', List.mem_cons_of_mem _ hm⟩

end Diagram
end SchemaSynth
