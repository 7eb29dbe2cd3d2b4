import SchemaSynth.Proofs.CreatedTables

/-! Which join tables a script makes under names of their own. A table whose name is taken is not
made, as the statement for it does nothing where there is a table of its name. -/
namespace SchemaSynth
open Statement

/-- No application makes a table of a name that the class tables, or another application, make. -/
structure JoinTablesApart (tables : List Statement) (applications : List RuleApplication) : Prop where
  from_classes : ∀ a ∈ applications, ∀ name,
    Creates a.statements name → ¬ Creates tables name
  from_others : applications.Pairwise fun a b =>
    ∀ name, Creates a.statements name → ¬ Creates b.statements name

namespace Diagram
open Strategy
variable {d : Diagram} {policy : CollisionPolicy} {i j : Nat} {name : String}
  {a b : RuleApplication}

def MakesJoinTable (d : Diagram) (policy : CollisionPolicy) (i : Nat) (name : String) : Prop :=
  ∃ e r source target, d.relationships[i]? = some e ∧ d.firstRule i e = some r ∧
    (TableNames.resolve policy d).get? e.source = some source ∧
    (TableNames.resolve policy d).get? e.target = some target ∧
    r.joinTable? source target = some name

private theorem exists_edge (ha : a ∈ d.applications (.resolve policy d) d.classify)
    (hi : i ∈ a.edges) : ∃ e, d.relationships[i]? = some e := by
  obtain ⟨_, k, s, _, he, hl, hsuits, rfl⟩ := exists_of_mem_applications ha
  have hlead : d.classify.lead i < d.relationships.length := by
    rw [(hsuits.mem_edges he hl).mp hi]
    exact (List.getElem?_eq_some_iff.mp he).1
  exact ⟨_, List.getElem?_eq_getElem (lead_lt_iff.mp hlead)⟩

private theorem application_creates_iff (ha : a ∈ d.applications (.resolve policy d) d.classify)
    (hi : i ∈ a.edges) : Creates a.statements name ↔ d.MakesJoinTable policy i name := by
  obtain ⟨e, he⟩ := exists_edge ha hi
  obtain ⟨b, hb, hib, s, f, key, hsuits, _, hstatements⟩ := exists_application policy he
  rw [application_unique ha hb hi hib, hstatements, hsuits.creates_iff]
  constructor
  · rintro ⟨source, target, hs, ht, hjoin⟩
    exact ⟨e, _, source, target, he, hsuits.firstRule, hs, ht, hjoin⟩
  · rintro ⟨e', r, source, target, he', hr, hs, ht, hjoin⟩
    obtain rfl := Option.some.inj (he.symm.trans he')
    obtain rfl := Option.some.inj (hsuits.firstRule.symm.trans hr)
    exact ⟨source, target, hs, ht, hjoin⟩

private theorem MakesJoinTable.exists_application (h : d.MakesJoinTable policy i name) :
    ∃ a ∈ d.applications (.resolve policy d) d.classify, i ∈ a.edges ∧
      Creates a.statements name := by
  obtain ⟨e, _, _, _, he, _⟩ := id h
  obtain ⟨a, ha, hi, _⟩ := Diagram.exists_application policy he
  exact ⟨a, ha, hi, (application_creates_iff ha hi).mpr h⟩

private theorem lead_eq_of_apart {tables : List Statement}
    (h : JoinTablesApart tables (d.applications (.resolve policy d) d.classify))
    (hi : d.MakesJoinTable policy i name) (hj : d.MakesJoinTable policy j name) :
    d.classify.lead i = d.classify.lead j := by
  obtain ⟨a, ha, hia, hca⟩ := hi.exists_application
  obtain ⟨b, hb, hjb, hcb⟩ := hj.exists_application
  have hsymm : Std.Symm fun a b : RuleApplication =>
      ∀ name, Creates a.statements name → ¬ Creates b.statements name :=
    ⟨fun _ _ h name hb ha => h name ha hb⟩
  have hab : a = b := by
    by_contra hne
    exact h.from_others.forall ha hb hne name hca hcb
  subst hab
  exact Option.some.inj ((head?_edges ha hia).symm.trans (head?_edges ha hjb))

/-- Join tables are named after their ends alone. They are apart unless one has the name of a class
table, or edges of two applications make join tables of one name. -/
theorem join_tables_apart_iff (d : Diagram) (policy : CollisionPolicy) :
    JoinTablesApart (d.tableBlocks (.resolve policy d) d.classify).flatten
        (d.applications (.resolve policy d) d.classify) ↔
      ∀ i name, d.MakesJoinTable policy i name → ¬ d.HasClassTable policy name ∧
        ∀ j, d.MakesJoinTable policy j name → d.classify.lead i = d.classify.lead j := by
  constructor
  · intro h i name hi
    obtain ⟨a, ha, _, hca⟩ := hi.exists_application
    exact ⟨mt creates_tableBlocks.mpr (h.from_classes a ha name hca),
      fun j hj => lead_eq_of_apart h hi hj⟩
  · intro h
    have hsorted := applications_sorted d policy
    have hmakes {a : RuleApplication} {i : Nat} {name : String}
        (ha : a ∈ d.applications (.resolve policy d) d.classify) (hi : a.edges.head? = some i)
        (hc : Creates a.statements name) :
        d.MakesJoinTable policy i name ∧ d.classify.lead i = i := by
      have hmem := List.mem_of_mem_head? hi
      exact ⟨(application_creates_iff ha hmem).mp hc,
        Option.some.inj ((head?_edges ha hmem).symm.trans hi)⟩
    constructor
    · intro a ha name hc
      obtain ⟨e, k, s, _, he, hl, hsuits, rfl⟩ := exists_of_mem_applications ha
      obtain ⟨hi, _⟩ := hmakes ha (hsuits.edges_shape he hl).1 hc
      exact mt creates_tableBlocks.mp (h k name hi).1
    · refine hsorted.imp_of_mem ?_
      rintro a b ha hb ⟨i, j, hia, hjb, hlt⟩ name hca hcb
      obtain ⟨hi, hli⟩ := hmakes ha hia hca
      obtain ⟨hj, hlj⟩ := hmakes hb hjb hcb
      have := (h i name hi).2 j hj
      omega

def namedLikeJoinTable : Diagram where
  classes := [⟨"a", "A", [], []⟩, ⟨"b", "B", [], []⟩, ⟨"c", "A B Rel", [], []⟩]
  relationships := [⟨.association, "a", "b", .many, .many, ""⟩]

/-- The class table is made first, so the join table is not, though the policy is to rename. -/
theorem namedLikeJoinTable_swallows_join_table : namedLikeJoinTable.ids.Nodup ∧
    ¬ JoinTablesApart
      (namedLikeJoinTable.tableBlocks (.resolve .suffix namedLikeJoinTable)
        namedLikeJoinTable.classify).flatten
      (namedLikeJoinTable.applications (.resolve .suffix namedLikeJoinTable)
        namedLikeJoinTable.classify) := by
  refine ⟨by decide, fun h => ?_⟩
  have hjoin : ∃ a ∈ namedLikeJoinTable.applications (.resolve .suffix namedLikeJoinTable)
      namedLikeJoinTable.classify, Creates a.statements "a_b_rel" := by decide
  obtain ⟨a, ha, hc⟩ := hjoin
  exact h.from_classes a ha "a_b_rel" hc (by decide)

end Diagram
end SchemaSynth
