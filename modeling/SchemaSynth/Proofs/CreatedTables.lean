import SchemaSynth.Proofs.RuleOrder
import SchemaSynth.Proofs.Sequence
import SchemaSynth.Synthesis.Generation

/-! Which tables a script makes, and whether it makes them before it refers to them. -/
namespace SchemaSynth

namespace Statement
variable {xs ys : List Statement} {name : String}

def created? : Statement → Option String
  | .createTable t => some t.name
  | _ => none

def Creates (statements : List Statement) (name : String) : Prop :=
  ∃ s ∈ statements, s.created? = some name

/-- Every foreign key refers to a table that an earlier statement makes. -/
def ReferencesCreated (statements : List Statement) : Prop :=
  Follows (fun before s => ∀ k ∈ s.foreignKeys, Creates before k.referencedTable) statements

instance : Decidable (Creates xs name) :=
  inferInstanceAs (Decidable (∃ s ∈ xs, s.created? = some name))

instance : Decidable (ReferencesCreated xs) :=
  inferInstanceAs (Decidable (Follows (fun before s =>
    ∀ k ∈ s.foreignKeys, Creates before k.referencedTable) xs))

/-- Of two runs of statements, a table is made by either. -/
theorem creates_append : Creates (xs ++ ys) name ↔ Creates xs name ∨ Creates ys name := by
  simp only [Creates, List.mem_append, or_and_right, exists_or]

private theorem creates_flatMap {α : Type} {f : α → List Statement} {as : List α} :
    Creates (as.flatMap f) name ↔ ∃ a ∈ as, Creates (f a) name := by
  simp only [Creates, List.mem_flatMap]
  constructor
  · rintro ⟨s, ⟨a, ha, hs⟩, hn⟩
    exact ⟨a, ha, s, hs, hn⟩
  · rintro ⟨a, ha, s, hs, hn⟩
    exact ⟨s, ⟨a, ha, hs⟩, hn⟩

/-- The references of statements are read off their foreign keys. -/
theorem mem_referencesOf {r : Reference} :
    r ∈ referencesOf xs ↔ ∃ s ∈ xs, ∃ k ∈ s.foreignKeys, k.reference = r := by
  simp only [referencesOf, List.mem_map, List.mem_flatMap]
  constructor
  · rintro ⟨k, ⟨s, hs, hk⟩, hr⟩
    exact ⟨s, hs, k, hk, hr⟩
  · rintro ⟨s, hs, k, hk, hr⟩
    exact ⟨k, ⟨s, hs, hk⟩, hr⟩

end Statement

def Rule.joinTable? (source target : String) : Rule → Option String
  | .recursiveManyToMany => some (Identifier.joined [source, "recursiva_rel"])
  | .manyToMany => some (Identifier.joined [source, target, "rel"])
  | _ => none

namespace Diagram
open Statement
variable {d : Diagram} {policy : CollisionPolicy} {e : RelationshipEdge} {i : Nat} {name : String}

/-- A class of the table name has a table: it is no join class. -/
def HasClassTable (d : Diagram) (policy : CollisionPolicy) (name : String) : Prop :=
  ∃ c ∈ d.classes, ¬ d.IsJoin c.id ∧ (TableNames.resolve policy d).get? c.id = some name

/-- An edge before the position has a rule that makes a join table of the name. -/
def HasJoinTableBefore (d : Diagram) (policy : CollisionPolicy) (i : Nat) (name : String) : Prop :=
  ∃ j < i, ∃ e r source target, d.relationships[j]? = some e ∧ d.firstRule j e = some r ∧
    (TableNames.resolve policy d).get? e.source = some source ∧
    (TableNames.resolve policy d).get? e.target = some target ∧ r.joinTable? source target = some name

/-- The blocks for classes make exactly the tables of classes. -/
theorem creates_tableBlocks :
    Creates (d.tableBlocks (.resolve policy d) d.classify).flatten name ↔ d.HasClassTable policy name := by
  constructor
  · rintro ⟨st, hst, hname⟩
    obtain ⟨c, hc, hj, name', hn, rfl | rfl⟩ := mem_tableBlocks.mp hst
    · cases hname
    · cases hname
      exact ⟨c, List.mem_of_find?_eq_some (mem_firstClasses.mp hc), hj, hn⟩
  · rintro ⟨c, hc, hj, hn⟩
    obtain ⟨c', hc', hid⟩ := exists_mem_firstClasses (List.mem_map_of_mem (f := (·.id)) hc)
    rw [← hid] at hj hn
    exact ⟨_, mem_tableBlocks.mpr ⟨c', hc', hj, name, hn, Or.inr rfl⟩, rfl⟩

/-- The blocks for classes declare no foreign key. -/
theorem foreignKeys_tableBlocks {st : Statement}
    (h : st ∈ (d.tableBlocks (.resolve policy d) d.classify).flatten) : st.foreignKeys = [] := by
  obtain ⟨c, _, _, name, _, rfl | rfl⟩ := mem_tableBlocks.mp h <;> rfl

/-- The ends of an edge outside of all pairs have class tables. -/
theorem Attached.hasClassTable {source target : String}
    (h : d.Attached (.resolve policy d) i e source target) (single : ¬ d.Paired i) :
    d.HasClassTable policy source ∧ d.HasClassTable policy target := by
  have hends {id name : String} (hj : ¬ d.IsJoin id)
      (hn : (TableNames.resolve policy d).get? id = some name) : d.HasClassTable policy name := by
    have hid : id ∈ d.ids :=
      (TableNames.get?_resolve_isSome policy d id).mp (Option.isSome_of_eq_some hn)
    obtain ⟨c, hc, rfl⟩ := List.mem_map.mp hid
    exact ⟨c, hc, hj, hn⟩
  obtain ⟨hsource, htarget⟩ := h.plain.resolve_left single
  exact ⟨hends hsource h.source_name, hends htarget h.target_name⟩

end Diagram

namespace Strategy
open Diagram Statement
variable {d : Diagram} {names : TableNames} {e f : RelationshipEdge} {i : Nat} {s : Strategy}
  {source target name : String} {key : List String}

private theorem follows_statements (e : RelationshipEdge) (key : List String) (s : Strategy) :
    Follows (fun part _ => ∀ name, ¬ Creates part name) (s.statements e key) := by
  cases s <;>
    simp [statements, selfReferenceStatements, compositionStatements, generalizationStatements,
      referenceOn, follows_cons, follows_nil, Creates, created?]

private theorem follows_references_iff {known : List Statement} :
    Follows (fun part st => ∀ k ∈ st.foreignKeys, Creates (known ++ part) k.referencedTable)
        (s.statements e key) ↔
      ∀ r ∈ referencesOf (s.statements e key), Creates known r.referenced := by
  have hpart {part after : List Statement} {st : Statement}
      (h : s.statements e key = part ++ st :: after) (name : String) :
      Creates (known ++ part) name ↔ Creates known name := by
    rw [creates_append, or_iff_left (follows_statements e key s part st after h name)]
  constructor
  · intro h r hr
    obtain ⟨st, hst, k, hk, rfl⟩ := mem_referencesOf.mp hr
    obtain ⟨part, after, hsplit⟩ := List.append_of_mem hst
    exact (hpart hsplit _).mp (h part st after hsplit k hk)
  · intro h part st after hsplit k hk
    have hst : st ∈ s.statements e key := by simp [hsplit]
    exact (hpart hsplit _).mpr (h k.reference (mem_referencesOf.mpr ⟨st, hst, k, hk, rfl⟩))

private theorem SuitsKind.creates_iff (h : SuitsKind e source target s) :
    Creates (s.statements f key) name ↔ s.rule.joinTable? source target = some name := by
  cases h <;>
    simp [Creates, created?, statements, compositionStatements, generalizationStatements, referenceOn,
      rule, Rule.joinTable?, joinTable]

/-- What suits an edge makes the join table of its rule and no other table. -/
theorem Suits.creates_iff (h : Suits d names i e s) :
    Creates (s.statements f key) name ↔ ∃ source target, names.get? e.source = some source ∧
      names.get? e.target = some target ∧ s.rule.joinTable? source target = some name := by
  have hends {source target : String} (ha : d.Attached names i e source target) :
      (∃ source target, names.get? e.source = some source ∧ names.get? e.target = some target ∧
        s.rule.joinTable? source target = some name) ↔
        s.rule.joinTable? source target = some name := by
    simp [ha.source_name, ha.target_name]
  cases h with
  | skipUnknown => simp [Creates, created?, statements, skipped, rule, Rule.joinTable?]
  | skipJoinClass => simp [Creates, created?, statements, skipped, rule, Rule.joinTable?]
  | selfReference attached =>
    rw [hends attached]
    simp [Creates, created?, statements, selfReferenceStatements, rule, Rule.joinTable?]
  | recursive attached =>
    rw [hends attached]
    simp [Creates, created?, statements, recursiveTable, rule, Rule.joinTable?]
  | ofKind attached _ _ kind =>
    rw [hends attached]
    exact kind.creates_iff

private theorem Suits.hasClassTable {policy : CollisionPolicy} {r : Reference}
    (h : Suits d (.resolve policy d) i e s) (single : ¬ d.Paired i)
    (hr : r ∈ referencesOf (s.statements f key)) : d.HasClassTable policy r.referenced := by
  cases h with
  | skipUnknown => cases hr
  | skipJoinClass => cases hr
  | recursive _ _ hp hi => exact absurd ⟨_, hp, hi⟩ single
  | selfReference attached =>
    rw [List.mem_singleton.mp hr]
    exact (attached.hasClassTable single).1
  | ofKind attached _ _ kind =>
    rw [kind.references] at hr
    rcases Rule.referenced_of_mem_references hr with h | h <;> rw [h]
    · exact (attached.hasClassTable single).1
    · exact (attached.hasClassTable single).2

private theorem Suits.forall_references_iff {p : RecursivePair} {P : String → Prop}
    (h : Suits d names i e s) (he : d.relationships[i]? = some e) (hp : p ∈ d.classify.pairs)
    (hi : i ∈ p.edges) :
    (∀ r ∈ referencesOf (s.statements f key), P r.referenced) ↔
      ∀ source, names.get? p.source = some source → P source := by
  obtain ⟨source, target, rfl, hsource, _⟩ := h.of_pair he hp hi
  constructor
  · intro hr source' hsource'
    obtain rfl : source = source' := Option.some.inj (hsource.symm.trans hsource')
    exact hr _ List.mem_cons_self
  · intro hP r hr
    rcases List.mem_pair.mp hr with rfl | rfl
    · exact hP source hsource
    · exact hP source hsource

end Strategy

namespace Diagram
open Strategy Statement
variable {d : Diagram} {policy : CollisionPolicy} {e : RelationshipEdge} {i : Nat} {s : Strategy}
  {name : String}

private theorem creates_before_iff {a : RuleApplication} {before after : List RuleApplication}
    (hsplit : d.applications (.resolve policy d) d.classify = before ++ a :: after)
    (hi : i ∈ a.edges) :
    Creates (before.flatMap (·.statements)) name ↔
      d.HasJoinTableBefore policy (d.classify.lead i) name := by
  rw [creates_flatMap]
  constructor
  · rintro ⟨b, hb, hc⟩
    have hmem : b ∈ d.applications (.resolve policy d) d.classify := by simp [hsplit, hb]
    obtain ⟨e, j, s, keys, he, hl, hsuits, rfl⟩ := exists_of_mem_applications hmem
    have hj : j ∈ (s.apply keys e j).edges := (hsuits.mem_edges he hl).mpr hl
    obtain ⟨source, target, hs, ht, hjoin⟩ := hsuits.creates_iff.mp hc
    refine ⟨j, ?_, e, _, source, target, he, hsuits.firstRule, hs, ht, hjoin⟩
    have hlt := (mem_before_iff hsplit hmem hi hj).mp hb
    rwa [hl] at hlt
  · rintro ⟨j, hlt, e, r, source, target, he, hr, hs, ht, hjoin⟩
    obtain ⟨b, hb, hj, s, f, key, hsuits, _, hstatements⟩ := exists_application policy he
    obtain rfl : s.rule = r := Option.some.inj (hsuits.firstRule.symm.trans hr)
    refine ⟨b, (mem_before_iff hsplit hb hi hj).mpr (Nat.lt_of_le_of_lt (lead_le d j) hlt), ?_⟩
    rw [hstatements]
    exact hsuits.creates_iff.mpr ⟨source, target, hs, ht, hjoin⟩

private theorem application_follows_iff {keys : PartKeys} {before after : List RuleApplication}
    (he : d.relationships[i]? = some e) (hl : d.classify.lead i = i)
    (hsuits : Suits d (.resolve policy d) i e s)
    (hsplit : d.applications (.resolve policy d) d.classify = before ++ s.apply keys e i :: after) :
    Follows (fun part st => ∀ k ∈ st.foreignKeys,
        Creates ((d.tableBlocks (.resolve policy d) d.classify).flatten ++
          (before.flatMap (·.statements) ++ part)) k.referencedTable)
        (s.apply keys e i).statements ↔
      ∀ r ∈ referencesOf (s.apply keys e i).statements,
        d.HasClassTable policy r.referenced ∨ d.HasJoinTableBefore policy i r.referenced := by
  have hi : i ∈ (s.apply keys e i).edges := (hsuits.mem_edges he hl).mpr hl
  simp only [← List.append_assoc]
  refine follows_references_iff.trans ?_
  simp only [creates_append, creates_tableBlocks, creates_before_iff hsplit hi, hl]
  rfl

/-- A script makes all tables before it refers to them, unless the source of a recursive pair is a
join class itself. Then another class, or a join table made earlier, has to have the name of its
table. -/
theorem references_created_iff (d : Diagram) (policy : CollisionPolicy) :
    ReferencesCreated (d.statements policy) ↔
      ∀ p ∈ d.classify.pairs, ∀ source, (TableNames.resolve policy d).get? p.source = some source →
        d.HasClassTable policy source ∨ d.HasJoinTableBefore policy p.first source := by
  have htables : Follows
      (fun before st => ∀ k ∈ st.foreignKeys, Creates before k.referencedTable)
      (d.tableBlocks (.resolve policy d) d.classify).flatten :=
    follows_of_forall fun _ st hst k hk => by
      rw [foreignKeys_tableBlocks hst] at hk
      cases hk
  refine (follows_append.trans ((and_iff_right htables).trans follows_flatMap)).trans ?_
  constructor
  · intro h p hp
    obtain ⟨e, he, _⟩ := pair_edge hp p.first_mem_edges
    have hsuits := choose_suits policy he
    obtain ⟨keys, ha⟩ := exists_apply_mem policy he (lead_first hp)
    obtain ⟨before, after, hsplit⟩ := List.append_of_mem ha
    have hreferences := (application_follows_iff he (lead_first hp) hsuits hsplit).mp
      (h before _ after hsplit)
    exact (hsuits.forall_references_iff he hp p.first_mem_edges).mp hreferences
  · intro h before a after hsplit
    have ha : a ∈ d.applications (.resolve policy d) d.classify := by simp [hsplit]
    obtain ⟨e, i, s, keys, he, hl, hsuits, rfl⟩ := exists_of_mem_applications ha
    refine (application_follows_iff he hl hsuits hsplit).mpr ?_
    by_cases paired : d.Paired i
    · obtain ⟨p, hp, hi⟩ := paired
      have hfirst : p.first = i := (lead_of_mem hp hi).symm.trans hl
      exact (hsuits.forall_references_iff he hp hi).mpr (hfirst ▸ h p hp)
    · intro r hr
      exact Or.inl (hsuits.hasClassTable paired hr)

/-- Two recursive pairs in a row: the join class of the first is the source of the second. -/
def chainedPairs : Diagram where
  classes := [⟨"r", "R", [], []⟩, ⟨"s", "S", [], []⟩, ⟨"t", "T", [], []⟩]
  relationships := [⟨.association, "r", "s", .one, .many, ""⟩,
    ⟨.association, "r", "s", .one, .many, ""⟩, ⟨.association, "s", "t", .one, .many, ""⟩,
    ⟨.association, "s", "t", .one, .many, ""⟩]

/-- The join table of the second pair refers to the join class of the first, which has no table. -/
theorem chainedPairs_refers_to_no_table : ¬ ReferencesCreated (chainedPairs.statements .warn) := by
  decide

end Diagram
end SchemaSynth
