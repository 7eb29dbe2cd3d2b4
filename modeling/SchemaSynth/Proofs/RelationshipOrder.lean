import SchemaSynth.Proofs.LastKeys
import Mathlib.Logic.Equiv.Fin.Basic
import Mathlib.Algebra.Group.End

/-! The order in which relationships are drawn decides on no rule and on no statement, but for the order
of the columns in the keys of parts. -/
namespace SchemaSynth

def Diagram.reordered (d : Diagram) (σ : Equiv.Perm (Fin d.relationships.length)) : Diagram where
  classes := d.classes
  relationships := List.ofFn fun i => d.relationships[σ i]

/-- The relationships of one diagram stand in the other, at the positions that `f` tells. -/
structure Diagram.Reorders (d d' : Diagram) (f : Equiv.Perm Nat) : Prop where
  classes : d'.classes = d.classes
  relationships : ∀ i, d'.relationships[i]? = d.relationships[f i]?

/-- The rules of the applications that use up an edge. -/
def RuleApplication.rulesFor (applications : List RuleApplication) (i : Nat) : List Rule :=
  (applications.filter fun a => a.edges.contains i).map (·.rule)

namespace Statement

def replacesKey : Statement → Bool
  | .replacePrimaryKey .. => true
  | _ => false

end Statement

namespace Strategy

/-- The strategies differ at most in the positions of a pair. -/
inductive Alike : Strategy → Strategy → Prop
  | same (s : Strategy) : Alike s s
  | recursive (p q : RecursivePair) (source target : String) :
      Alike (.recursive p source target) (.recursive q source target)

variable {s s' : Strategy} {e : RelationshipEdge} {key : List String}
  {whole table : String}

private theorem Alike.statements (h : Alike s s') : s.statements e key = s'.statements e key := by
  cases h <;> rfl

private theorem Alike.eq_composition_iff (h : Alike s s') :
    s = .composition whole table ↔ s' = .composition whole table := by
  cases h <;> simp

private theorem filter_statements (s : Strategy) (e : RelationshipEdge) (key : List String) :
    (s.statements e key).filter (!·.replacesKey) = (s.statements e []).filter (!·.replacesKey) := by
  cases s <;> rfl

end Strategy

namespace Diagram
open Strategy Statement
variable {d d' : Diagram} {policy : CollisionPolicy} {f : Equiv.Perm Nat} {s t table : String}
  {i j : Nat} {e : RelationshipEdge}

private theorem reordered_reorders (d : Diagram) (σ : Equiv.Perm (Fin d.relationships.length)) :
    ∃ f : Equiv.Perm Nat, (∀ i : Fin d.relationships.length, f i = σ i) ∧
      Reorders d (d.reordered σ) f := by
  have hin (i : Fin d.relationships.length) : σ.extendDomain Fin.equivSubtype i = σ i :=
    σ.extendDomain_apply_image Fin.equivSubtype i
  refine ⟨σ.extendDomain Fin.equivSubtype, hin, rfl, fun i => ?_⟩
  by_cases hi : i < d.relationships.length
  · rw [hin ⟨i, hi⟩]
    simp [reordered, hi]
  · rw [σ.extendDomain_apply_not_subtype Fin.equivSubtype hi]
    simp [reordered, hi]

section Pairs

private theorem exists_pair_iff :
    (∃ p ∈ d.classify.pairs, p.source = s ∧ p.target = t ∧ i ∈ p.edges ∧ j ∈ p.edges) ↔
      (d.links s t).length = 2 ∧ i ∈ d.links s t ∧ j ∈ d.links s t := by
  constructor
  · rintro ⟨p, hp, rfl, rfl, hi, hj⟩
    rw [mem_pairs.mp hp]
    exact ⟨rfl, hi, hj⟩
  · rintro ⟨htwo, hi, hj⟩
    obtain ⟨first, second, hlinks⟩ := List.length_eq_two.mp htwo
    rw [hlinks] at hi hj
    exact ⟨⟨s, t, first, second⟩, mem_pairs.mpr hlinks, rfl, rfl, hi, hj⟩

private theorem isJoin_iff : d.IsJoin t ↔ ∃ s, (d.links s t).length = 2 := by
  constructor
  · rintro ⟨p, hp, rfl⟩
    exact ⟨p.source, by rw [mem_pairs.mp hp]; rfl⟩
  · rintro ⟨s, htwo⟩
    obtain ⟨first, second, hlinks⟩ := List.length_eq_two.mp htwo
    exact ⟨⟨s, t, first, second⟩, mem_pairs.mpr hlinks, rfl⟩

private theorem lead_eq_lead_iff : d.classify.lead i = d.classify.lead j ↔
    i = j ∨ ∃ p ∈ d.classify.pairs, i ∈ p.edges ∧ j ∈ p.edges := by
  by_cases hj : d.Paired j
  · obtain ⟨p, hp, hjp⟩ := hj
    rw [lead_of_mem hp hjp, lead_eq_first_iff hp]
    constructor
    · exact fun hi => Or.inr ⟨p, hp, hi, hjp⟩
    · rintro (rfl | ⟨q, hq, hiq, hjq⟩)
      · exact hjp
      · rwa [pair_unique hp hq hjp hjq]
  · rw [lead_of_not_paired hj, lead_eq_iff_of_not_paired hj]
    constructor
    · exact Or.inl
    · rintro (hij | ⟨p, hp, _, hjp⟩)
      · exact hij
      · exact absurd ⟨p, hp, hjp⟩ hj

namespace Reorders

private theorem mem_links (h : Reorders d d' f) : i ∈ d'.links s t ↔ f i ∈ d.links s t := by
  have hqualifies (e : RelationshipEdge) : d'.qualifies e = d.qualifies e := by
    rw [qualifies, qualifies, ids, ids, h.classes]
  simp only [Diagram.mem_links, h.relationships, hqualifies]

private theorem length_links (h : Reorders d d' f) (s t : String) :
    (d'.links s t).length = (d.links s t).length := by
  have hnodup (d : Diagram) : (d.links s t).Nodup := links_sorted.imp Nat.ne_of_lt
  have hperm : ((d'.links s t).map f).Perm (d.links s t) := by
    refine (List.perm_ext_iff_of_nodup ((hnodup d').map f.injective) (hnodup d)).mpr fun k => ?_
    rw [List.mem_map]
    constructor
    · rintro ⟨i, hi, rfl⟩
      exact h.mem_links.mp hi
    · intro hk
      exact ⟨f.symm k, h.mem_links.mpr (by rwa [Equiv.apply_symm_apply]), f.apply_symm_apply k⟩
  rw [← hperm.length_eq, List.length_map]

private theorem exists_pair (h : Reorders d d' f) :
    (∃ p ∈ d'.classify.pairs, p.source = s ∧ p.target = t ∧ i ∈ p.edges ∧ j ∈ p.edges) ↔
      ∃ p ∈ d.classify.pairs, p.source = s ∧ p.target = t ∧ f i ∈ p.edges ∧ f j ∈ p.edges := by
  rw [exists_pair_iff, exists_pair_iff, h.length_links, h.mem_links, h.mem_links]

private theorem isJoin (h : Reorders d d' f) : d'.IsJoin t ↔ d.IsJoin t := by
  simp only [isJoin_iff, h.length_links]

private theorem isIntermediary (h : Reorders d d' f) (id : String) :
    d'.classify.isIntermediary id = d.classify.isIntermediary id := by
  rw [Bool.eq_iff_iff, isIntermediary_iff, isIntermediary_iff, h.isJoin]

private theorem pairFor? (h : Reorders d d' f) {p : RecursivePair} (hp : d'.classify.pairFor? i = some p) :
    ∃ q, d.classify.pairFor? (f i) = some q ∧ q.source = p.source ∧ q.target = p.target := by
  obtain ⟨hp, hi⟩ := pairFor?_eq_some_iff.mp hp
  obtain ⟨q, hq, hsource, htarget, hfi, _⟩ := h.exists_pair.mp ⟨p, hp, rfl, rfl, hi, hi⟩
  exact ⟨q, pairFor?_eq_some_iff.mpr ⟨hq, hfi⟩, hsource, htarget⟩

private theorem paired (h : Reorders d d' f) : d'.Paired i ↔ d.Paired (f i) := by
  constructor
  · rintro ⟨p, hp, hi⟩
    obtain ⟨q, hq, _, _, hfi, _⟩ := h.exists_pair.mp ⟨p, hp, rfl, rfl, hi, hi⟩
    exact ⟨q, hq, hfi⟩
  · rintro ⟨q, hq, hfi⟩
    obtain ⟨p, hp, _, _, hi, _⟩ := h.exists_pair.mpr ⟨q, hq, rfl, rfl, hfi, hfi⟩
    exact ⟨p, hp, hi⟩

private theorem lead_eq_lead (h : Reorders d d' f) : d'.classify.lead i = d'.classify.lead j ↔
    d.classify.lead (f i) = d.classify.lead (f j) := by
  rw [lead_eq_lead_iff, lead_eq_lead_iff, f.injective.eq_iff]
  refine or_congr_right ⟨?_, ?_⟩
  · rintro ⟨p, hp, hi, hj⟩
    obtain ⟨q, hq, _, _, hpair⟩ := h.exists_pair.mp ⟨p, hp, rfl, rfl, hi, hj⟩
    exact ⟨q, hq, hpair⟩
  · rintro ⟨q, hq, hi, hj⟩
    obtain ⟨p, hp, _, _, hpair⟩ := h.exists_pair.mpr ⟨q, hq, rfl, rfl, hi, hj⟩
    exact ⟨p, hp, hpair⟩

end Reorders
end Pairs

section Choices

namespace Reorders

private theorem resolve (h : Reorders d d' f) (policy : CollisionPolicy) :
    TableNames.resolve policy d' = TableNames.resolve policy d := by
  rw [TableNames.resolve, TableNames.resolve, namingConflicts, namingConflicts, h.classes]

private theorem choose_alike (h : Reorders d d' f) (names : TableNames) (e : RelationshipEdge) (i : Nat) :
    Alike (choose names d'.classify e i) (choose names d.classify e (f i)) := by
  have hjoin : joinEnd? d'.classify e = joinEnd? d.classify e := by
    rw [joinEnd?, joinEnd?, funext h.isIntermediary]
  rw [choose, choose, hjoin]
  cases names.get? e.source with
  | none => exact .same _
  | some source =>
    cases names.get? e.target with
    | none => exact .same _
    | some target =>
      cases hp : d'.classify.pairFor? i with
      | none =>
        have hq : d.classify.pairFor? (f i) = none := by
          rw [pairFor?_eq_none_iff, ← h.paired, ← pairFor?_eq_none_iff, hp]
        rw [hq]
        exact .same _
      | some p =>
        obtain ⟨q, hq, _, htarget⟩ := h.pairFor? hp
        rw [hq]
        cases joinEnd? d.classify e <;>
          by_cases hself : e.isSelfReference = true <;>
          simp only [hself, if_true, if_false, Bool.false_eq_true, htarget] <;>
          constructor

private theorem firstRule (h : Reorders d d' f) (i : Nat) (e : RelationshipEdge) :
    d'.firstRule i e = d.firstRule (f i) e := by
  have hmeets (r : Rule) : d'.Meets i e r ↔ d.Meets (f i) e r := by
    cases r with
    | missingEndpoint => simp only [Meets, ids, h.classes, h.paired, h.isJoin]
    | recursiveManyToMany => exact h.paired
    | _ => exact Iff.rfl
  rw [Diagram.firstRule, Diagram.firstRule]
  simp only [hmeets]

end Reorders

/-- An edge is under the one rule that it meets first. -/
theorem rulesFor_applications {r : Rule} (policy : CollisionPolicy) (he : d.relationships[i]? = some e)
    (hr : d.firstRule i e = some r) :
    RuleApplication.rulesFor (d.applications (.resolve policy d) d.classify) i = [r] := by
  obtain ⟨a, ha, hi, s, _, _, hsuits, hrule, _⟩ := exists_application policy he
  have hnodup : (d.applications (.resolve policy d) d.classify).Nodup := by
    apply (applications_sorted d policy).imp
    rintro a _ ⟨m, n, hm, hn, hlt⟩ rfl
    rw [hm, Option.some.injEq] at hn
    omega
  have hone :
      (d.applications (.resolve policy d) d.classify).filter (fun a => a.edges.contains i) = [a] := by
    refine List.perm_singleton.mp ((List.perm_ext_iff_of_nodup (hnodup.filter _)
      (List.nodup_singleton a)).mpr fun b => ?_)
    rw [List.mem_filter, List.mem_singleton, List.contains_iff_mem]
    constructor
    · rintro ⟨hb, hib⟩
      exact application_unique hb ha hib hi
    · rintro rfl
      exact ⟨ha, hi⟩
  rw [RuleApplication.rulesFor, hone, List.map_singleton, hrule,
    Option.some.inj (hsuits.firstRule.symm.trans hr)]

end Choices

section Statements

private def leads (d : Diagram) : List Nat := d.leading.map (·.2)

private theorem mem_leads : i ∈ d.leads ↔ i < d.relationships.length ∧ d.classify.lead i = i := by
  simp [leads, mem_leading, List.getElem?_eq_some_iff]

private def settledAt (d : Diagram) (policy : CollisionPolicy) (i : Nat) : List Statement :=
  match d.relationships[i]? with
  | some e =>
    ((choose (.resolve policy d) d.classify e i).statements e []).filter (!·.replacesKey)
  | none => []

private theorem filter_applications (d : Diagram) (policy : CollisionPolicy) :
    ((d.applications (.resolve policy d) d.classify).flatMap (·.statements)).filter (!·.replacesKey) =
      d.leads.flatMap (d.settledAt policy) := by
  rw [List.filter_flatMap, List.flatMap_def, applications_eq_carryOut,
    map_carryOut (fun a => a.statements.filter (!·.replacesKey)) fun keys keys' e i s => by
      rw [apply, apply, filter_statements, filter_statements s e (s.partKey keys')],
    leads, List.flatMap_map, List.flatMap_def]
  refine congrArg List.flatten (List.map_congr_left fun x hx => ?_)
  rw [settledAt, (mem_leading.mp hx).1]
  exact filter_statements _ _ _

private theorem settledAt_lead (policy : CollisionPolicy) (hi : i < d.relationships.length) :
    d.settledAt policy (d.classify.lead i) = d.settledAt policy i := by
  have hlt : d.classify.lead i < d.relationships.length := lead_lt_iff.mpr hi
  have he : d.relationships[i]? = some d.relationships[i] := List.getElem?_eq_getElem hi
  have hlead : d.relationships[d.classify.lead i]? = some d.relationships[d.classify.lead i] :=
    List.getElem?_eq_getElem hlt
  by_cases paired : d.Paired i
  · obtain ⟨p, hp, hip⟩ := paired
    obtain ⟨source, target, hchoose, _⟩ := (choose_suits policy he).of_pair he hp hip
    rw [settledAt, settledAt, he, hlead]
    simp only [choose_lead policy he hlead, hchoose]
    rfl
  · rw [lead_of_not_paired paired]

namespace Reorders

private theorem settledAt (h : Reorders d d' f) (policy : CollisionPolicy) (i : Nat) :
    d'.settledAt policy i = d.settledAt policy (f i) := by
  rw [Diagram.settledAt, Diagram.settledAt, h.relationships, h.resolve]
  cases d.relationships[f i]? with
  | none => rfl
  | some e => exact congrArg (List.filter _) (h.choose_alike _ e i).statements

private theorem lt_length (h : Reorders d d' f) :
    i < d'.relationships.length ↔ f i < d.relationships.length := by
  rw [← not_le, ← not_le, ← List.getElem?_eq_none_iff, ← List.getElem?_eq_none_iff, h.relationships]

private theorem leads_perm (h : Reorders d d' f) :
    (d'.leads.map fun i => d.classify.lead (f i)).Perm d.leads := by
  have hnodup : (d'.leads.map fun i => d.classify.lead (f i)).Nodup := by
    refine List.Nodup.map_on ?_ (leading_nodup d')
    intro i hi j hj hij
    rwa [← h.lead_eq_lead, (mem_leads.mp hi).2, (mem_leads.mp hj).2] at hij
  refine (List.perm_ext_iff_of_nodup hnodup (leading_nodup d)).mpr fun k => ?_
  rw [List.mem_map]
  constructor
  · rintro ⟨i, hi, rfl⟩
    exact mem_leads.mpr ⟨lead_lt_iff.mpr (h.lt_length.mp (mem_leads.mp hi).1), lead_lead d _⟩
  · intro hk
    obtain ⟨hlt, hlead⟩ := mem_leads.mp hk
    have hback : f (f.symm k) = k := f.apply_symm_apply k
    refine ⟨d'.classify.lead (f.symm k), mem_leads.mpr ⟨lead_lt_iff.mpr ?_, lead_lead d' _⟩, ?_⟩
    · rwa [h.lt_length, hback]
    · rw [h.lead_eq_lead.mp (lead_lead d' _), hback, hlead]

private theorem statements_perm (h : Reorders d d' f) (policy : CollisionPolicy) :
    (((d'.applications (.resolve policy d') d'.classify).flatMap (·.statements)).filter
        (!·.replacesKey)).Perm
      (((d.applications (.resolve policy d) d.classify).flatMap (·.statements)).filter
        (!·.replacesKey)) := by
  have hsettled : d'.leads.map (d'.settledAt policy) =
      d'.leads.map fun i => d.settledAt policy (d.classify.lead (f i)) := by
    refine List.map_congr_left fun i hi => ?_
    rw [settledAt_lead policy (h.lt_length.mp (mem_leads.mp hi).1), h.settledAt]
  have hperm := (h.leads_perm).flatMap_right (d.settledAt policy)
  rw [filter_applications, filter_applications, List.flatMap_def, hsettled, ← List.flatMap_def]
  rwa [List.flatMap_map] at hperm

end Reorders
end Statements

section Keys

private theorem Reorders.composes (h : Reorders d d' f) :
    d'.Composes policy whole table ↔ d.Composes policy whole table := by
  rw [Composes, Composes, h.resolve]
  constructor
  · rintro ⟨i, e, he, hchoose⟩
    exact ⟨f i, e, h.relationships i ▸ he, (h.choose_alike _ e i).eq_composition_iff.mp hchoose⟩
  · rintro ⟨i, e, he, hchoose⟩
    have hback : f (f.symm i) = i := f.apply_symm_apply i
    refine ⟨f.symm i, e, by rw [h.relationships, hback, he], ?_⟩
    rwa [(h.choose_alike _ e _).eq_composition_iff, hback]

private theorem Reorders.lastKey? (h : Reorders d d' f) (policy : CollisionPolicy) (table : String) :
    Option.Rel (fun key' key : List String => ∀ column, column ∈ key' ↔ column ∈ key)
      (Statement.lastKey? table
        ((d'.applications (.resolve policy d') d'.classify).flatMap (·.statements)))
      (Statement.lastKey? table
        ((d.applications (.resolve policy d) d.classify).flatMap (·.statements))) := by
  have hsome' := lastKey?_isSome d' policy table
  simp only [h.composes, ← lastKey?_isSome d policy table] at hsome'
  cases hkey' : Statement.lastKey? table
      ((d'.applications (.resolve policy d') d'.classify).flatMap (·.statements)) <;>
    cases hkey : Statement.lastKey? table
      ((d.applications (.resolve policy d) d.classify).flatMap (·.statements)) <;>
    simp only [hkey', hkey, Option.isSome_none, Option.isSome_some, iff_true, true_iff,
      Bool.false_eq_true] at hsome'
  · exact .none
  · refine .some fun column => ?_
    rw [mem_lastKey? hkey', mem_lastKey? hkey]
    simp only [h.composes]

end Keys

/-- In whatever order the relationships are drawn: the same classes are join classes, each edge is
handled by the same rule and is in a pair with the same other edge, and the same statements are made, as
often. But the columns of a key that replaces another may have another order. -/
theorem relationship_order_irrelevant (d : Diagram) (policy : CollisionPolicy)
    (σ : Equiv.Perm (Fin d.relationships.length)) :
    let d' := d.reordered σ
    let run := d.applications (.resolve policy d) d.classify
    let run' := d'.applications (.resolve policy d') d'.classify
    (∀ id, d'.classify.isIntermediary id = d.classify.isIntermediary id) ∧
    (∀ i : Fin d.relationships.length, ∃ r, RuleApplication.rulesFor run (σ i) = [r] ∧
      RuleApplication.rulesFor run' i = [r]) ∧
    (∀ (s t : String) (i j : Fin d.relationships.length),
      (∃ p ∈ d'.classify.pairs, p.source = s ∧ p.target = t ∧ ↑i ∈ p.edges ∧ ↑j ∈ p.edges) ↔
        ∃ p ∈ d.classify.pairs, p.source = s ∧ p.target = t ∧
          ↑(σ i) ∈ p.edges ∧ ↑(σ j) ∈ p.edges) ∧
    ((run'.flatMap (·.statements)).filter (!·.replacesKey)).Perm
      ((run.flatMap (·.statements)).filter (!·.replacesKey)) ∧
    ∀ table, Option.Rel (fun key' key : List String => ∀ column, column ∈ key' ↔ column ∈ key)
      (lastKey? table (run'.flatMap (·.statements))) (lastKey? table (run.flatMap (·.statements))) := by
  intro d' run run'
  obtain ⟨f, hf, h⟩ := reordered_reorders d σ
  refine ⟨h.isIntermediary, fun i => ?_, fun s t i j => ?_, h.statements_perm policy,
    h.lastKey? policy⟩
  · have he : d.relationships[(σ i : Nat)]? = some d.relationships[σ i] :=
      List.getElem?_eq_getElem (σ i).isLt
    have he' : d'.relationships[(i : Nat)]? = some d.relationships[σ i] := by
      rw [h.relationships, hf, he]
    have hr := (choose_suits policy he).firstRule
    refine ⟨_, rulesFor_applications policy he hr, rulesFor_applications policy he' ?_⟩
    rw [h.firstRule, hf, hr]
  · rw [h.exists_pair, hf, hf]

end Diagram
end SchemaSynth
