import SchemaSynth.Proofs.Coverage
import SchemaSynth.Synthesis.Generation
import Mathlib.Data.List.Forall2
import Mathlib.Data.List.Induction

/-! How many tables the statements for a diagram make, and what they are made for. -/
namespace SchemaSynth

namespace Statement

def table? : Statement → Option Table
  | .createTable t => some t
  | _ => none

def tablesOf (statements : List Statement) : List Table :=
  statements.filterMap table?

theorem tablesOf_append (xs ys : List Statement) : tablesOf (xs ++ ys) = tablesOf xs ++ tablesOf ys :=
  List.filterMap_append

private theorem tablesOf_flatten (blocks : List (List Statement)) :
    tablesOf blocks.flatten = blocks.flatMap tablesOf := by
  rw [tablesOf, List.filterMap_flatten, List.flatMap_def]
  rfl

end Statement

def RuleApplication.MakesOwnTables (a : RuleApplication) : Prop :=
  (Statement.tablesOf a.statements).length =
    if a.rule = .manyToMany ∨ a.rule = .recursiveManyToMany then 1 else 0

namespace Diagram
open Statement Strategy
variable {d : Diagram} {policy : CollisionPolicy}

/-- The table of the first class of an id, under the name that is resolved for the id. -/
def IsTableOf (d : Diagram) (policy : CollisionPolicy) (t : Table) (id : String) : Prop :=
  ∃ c name, d.find? id = some c ∧ (TableNames.resolve policy d).get? id = some name ∧ t = c.table name

section ClassTables

/-- Tables are made of the classes that are the first of their ids. -/
theorem firstClasses_eq (d : Diagram) : d.firstClasses = firstsBy (·.id) d.classes := by
  obtain ⟨cs, es⟩ := d
  induction cs using List.reverseRecOn with
  | nil => rfl
  | append_singleton cs c ih =>
    have hfirst : (Diagram.mk (cs ++ [c]) es).firstClasses = (Diagram.mk cs es).firstClasses ++
        if (cs.map (·.id)).contains c.id then [] else [c] := by
      rw [firstClasses, List.zipIdx_append, List.filterMap_append]
      congr 1
      · refine List.filterMap_congr ?_
        rintro ⟨b, n⟩ hb
        dsimp only
        rw [List.take_append_of_le_length (Nat.le_of_lt (by simpa using List.snd_lt_of_mem_zipIdx hb))]
      · by_cases hc : ∃ b ∈ cs, b.id = c.id <;> simp [hc]
    rw [hfirst, ih, firstsBy_concat]
    split
    · exact List.append_nil _
    · rfl

private theorem ids_firstClasses (d : Diagram) : d.firstClasses.map (·.id) = d.ids.eraseDups := by
  rw [firstClasses_eq, map_firstsBy, ids]

private theorem tablesOf_tableBlocks (d : Diagram) (names : TableNames) :
    tablesOf (d.tableBlocks names d.classify).flatten =
      (d.firstClasses.filter fun c => ¬ d.IsJoin c.id).filterMap fun c =>
        (names.get? c.id).map c.table := by
  have hclasses : (d.firstClasses.filter fun c => !d.classify.isIntermediary c.id) =
      d.firstClasses.filter fun c => ¬ d.IsJoin c.id :=
    List.filter_congr fun c _ => by rw [Bool.eq_iff_iff]; simp [← isIntermediary_iff]
  rw [tablesOf_flatten, tableBlocks, hclasses]
  induction d.firstClasses.filter fun c => ¬ d.IsJoin c.id with
  | nil => rfl
  | cons c cs ih =>
    cases hname : names.get? c.id with
    | none => simpa [tableBlock, hname, List.filterMap_cons] using ih
    | some name => simpa [tableBlock, hname, List.filterMap_cons, tablesOf, table?] using ih

private theorem isTableOf_classes {cs : List ClassNode} (hcs : ∀ c ∈ cs, c ∈ d.firstClasses) :
    List.Forall₂ (d.IsTableOf policy)
      (cs.filterMap fun c => ((TableNames.resolve policy d).get? c.id).map c.table)
      (cs.map (·.id)) := by
  induction cs with
  | nil => exact .nil
  | cons c cs ih =>
    obtain ⟨hc, hcs⟩ := List.forall_mem_cons.mp hcs
    have hfind := mem_firstClasses.mp hc
    have hid : c.id ∈ d.ids := List.mem_map_of_mem (List.mem_of_find?_eq_some hfind)
    obtain ⟨name, hname⟩ := TableNames.exists_get?_resolve policy hid
    rw [List.filterMap_cons_some (by rw [hname]; rfl), List.map_cons]
    exact .cons ⟨c, name, hfind, hname, rfl⟩ (ih hcs)

/-- There is one class table for every id that is not that of a join class. -/
theorem isTableOf_tableBlocks (d : Diagram) (policy : CollisionPolicy) :
    List.Forall₂ (d.IsTableOf policy)
      (tablesOf (d.tableBlocks (.resolve policy d) d.classify).flatten)
      (d.ids.eraseDups.filter fun id => ¬ d.IsJoin id) := by
  rw [tablesOf_tableBlocks, ← ids_firstClasses, List.filter_map]
  exact isTableOf_classes fun c hc => List.mem_of_mem_filter hc

private theorem length_joins (d : Diagram) :
    (d.ids.eraseDups.filter fun id => d.IsJoin id).length =
      (d.classify.pairs.map (·.target)).eraseDups.length := by
  have hperm : (d.ids.eraseDups.filter fun id => d.IsJoin id).Perm
      (d.classify.pairs.map (·.target)).eraseDups := by
    refine (List.perm_ext_iff_of_nodup ((nodup_eraseDups _).filter _) (nodup_eraseDups _)).mpr ?_
    intro id
    rw [List.mem_filter, List.mem_eraseDups, List.mem_eraseDups, decide_eq_true_iff, List.mem_map]
    refine and_iff_right_of_imp ?_
    rintro ⟨p, hp, rfl⟩
    obtain ⟨e, he, _, _, htarget⟩ := pair_edge hp p.first_mem_edges
    exact htarget ▸ (Paired.ends ⟨p, hp, p.first_mem_edges⟩ he).2.1
  exact hperm.length_eq

end ClassTables

section JoinTables
variable {a : RuleApplication} {as : List RuleApplication}

private theorem makesOwnTables_apply (s : Strategy) (keys : PartKeys) (e : RelationshipEdge) (i : Nat) :
    (s.apply keys e i).MakesOwnTables := by
  cases s <;> rfl

/-- Every application makes one table or none, as its rule does. -/
theorem makesOwnTables_of_mem (ha : a ∈ d.applications (.resolve policy d) d.classify) :
    a.MakesOwnTables := by
  obtain ⟨e, i, s, keys, _, _, _, rfl⟩ := exists_of_mem_applications ha
  exact makesOwnTables_apply s keys e i

private theorem length_tablesOf_flatMap (h : ∀ a ∈ as, a.MakesOwnTables) :
    (tablesOf (as.flatMap (·.statements))).length =
      (as.filter (·.rule = .manyToMany)).length +
        (as.filter (·.rule = .recursiveManyToMany)).length := by
  induction as with
  | nil => rfl
  | cons a as ih =>
    obtain ⟨ha, has⟩ := List.forall_mem_cons.mp h
    rw [List.flatMap_cons, tablesOf_append, List.length_append, ih has, ha]
    by_cases hmany : a.rule = .manyToMany
    · simp [hmany]
      omega
    · by_cases hrecursive : a.rule = .recursiveManyToMany
      · simp [hrecursive]
        omega
      · simp [hmany, hrecursive]

private theorem rule_choose_iff {x : RelationshipEdge × Nat} (hx : x ∈ d.leading) :
    (choose (.resolve policy d) d.classify x.1 x.2).rule = .recursiveManyToMany ↔ d.Paired x.2 := by
  obtain ⟨he, _⟩ := mem_leading.mp hx
  have hsuits := choose_suits policy he
  constructor
  · intro hrule
    by_contra single
    exact (hsuits.of_single single).2 hrule
  · rintro ⟨p, hp, hi⟩
    obtain ⟨source, target, hchosen, _⟩ := hsuits.of_pair he hp hi
    rw [hchosen]
    rfl

private theorem paired_leading_perm (d : Diagram) :
    ((d.leading.map (·.2)).filter fun i => d.Paired i).Perm (d.classify.pairs.map (·.first)) := by
  have hfirsts : (d.classify.pairs.map (·.first)).Nodup :=
    List.pairwise_map.mpr (pairs_sorted.imp Nat.ne_of_lt)
  refine (List.perm_ext_iff_of_nodup ((leading_nodup d).filter _) hfirsts).mpr fun i => ?_
  simp only [List.mem_filter, List.mem_map, decide_eq_true_eq]
  constructor
  · rintro ⟨⟨x, hx, rfl⟩, p, hp, hi⟩
    exact ⟨p, hp, (lead_of_mem hp hi).symm.trans (mem_leading.mp hx).2⟩
  · rintro ⟨p, hp, rfl⟩
    obtain ⟨e, he, _⟩ := pair_edge hp p.first_mem_edges
    exact ⟨⟨(e, p.first), mem_leading.mpr ⟨he, lead_first hp⟩, rfl⟩, p, hp, p.first_mem_edges⟩

/-- The recursive rule is applied once for every recursive pair. -/
theorem length_recursive_applications (d : Diagram) (policy : CollisionPolicy) :
    ((d.applications (.resolve policy d) d.classify).filter
      (·.rule = .recursiveManyToMany)).length = d.classify.pairs.length := by
  have hcount : (d.applications (.resolve policy d) d.classify).countP
      (·.rule = .recursiveManyToMany) = d.leading.countP fun x => d.Paired x.2 := by
    calc (d.applications (.resolve policy d) d.classify).countP (·.rule = .recursiveManyToMany)
        = ((d.applications (.resolve policy d) d.classify).map (·.rule)).countP
            (· = .recursiveManyToMany) := by rw [List.countP_map]; rfl
      _ = d.leading.countP fun x => d.Paired x.2 := by
        rw [applications_rules, List.countP_map]
        exact List.countP_congr fun x hx => by simpa using rule_choose_iff hx
  rw [← List.countP_eq_length_filter, hcount, ← List.length_map (f := (·.first)),
    ← (paired_leading_perm d).length_eq, ← List.countP_eq_length_filter, List.countP_map]
  rfl

end JoinTables

/-- The tables that are made are those that are counted, but for three things: classes of one id share
a table, join classes have none, and the join tables of recursive pairs are not counted. -/
theorem length_tablesOf_statements (d : Diagram) (policy : CollisionPolicy) :
    ((tablesOf (d.statements policy)).length : Int) =
      (d.statistics (d.applications (.resolve policy d) d.classify)).tableCount
        - (d.classes.length - d.ids.eraseDups.length)
        - (d.classify.pairs.map (·.target)).eraseDups.length + d.classify.pairs.length := by
  have hclasses := (isTableOf_tableBlocks d policy).length_eq
  have hids := List.length_eq_length_filter_add (l := d.ids.eraseDups) fun id => d.IsJoin id
  have happlications := length_tablesOf_flatMap
    fun a (ha : a ∈ d.applications (.resolve policy d) d.classify) => makesOwnTables_of_mem ha
  have hstatements : d.statements policy = (d.tableBlocks (.resolve policy d) d.classify).flatten ++
      (d.applications (.resolve policy d) d.classify).flatMap (·.statements) := rfl
  have hcounted : (d.statistics (d.applications (.resolve policy d) d.classify)).tableCount =
      d.classes.length + ((d.applications (.resolve policy d) d.classify).filter
        (·.rule = .manyToMany)).length := rfl
  rw [length_joins] at hids
  rw [length_recursive_applications] at happlications
  simp only [decide_not] at hclasses
  rw [hstatements, tablesOf_append, List.length_append, hclasses, happlications, hcounted]
  omega

end Diagram

end SchemaSynth
