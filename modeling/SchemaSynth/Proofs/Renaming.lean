import SchemaSynth.Proofs.Reachability
import SchemaSynth.Proofs.RecursivePairs
import SchemaSynth.Synthesis.Generation
import Mathlib.SetTheory.Cardinal.Arithmetic

/-! Ids only tell classes apart, and labels and methods are not read. -/
namespace SchemaSynth

@[mk_iff]
structure ClassNode.Renamed (r : String → String) (c c' : ClassNode) : Prop where
  id : c'.id = r c.id
  name : c'.name = c.name
  attributes : c'.attributes = c.attributes

@[mk_iff]
structure RelationshipEdge.Renamed (r : String → String) (e e' : RelationshipEdge) : Prop where
  kind : e'.kind = e.kind
  source : e'.source = r e.source
  target : e'.target = r e.target
  multiplicityFrom : e'.multiplicityFrom = e.multiplicityFrom
  multiplicityTo : e'.multiplicityTo = e.multiplicityTo

namespace Diagram

/-- The ids of the classes and the ends of the relationships. -/
def mentioned (d : Diagram) : List String :=
  d.ids ++ d.relationships.flatMap fun e => [e.source, e.target]

/-- The diagram has other ids, labels and methods. -/
@[mk_iff]
structure Renamed (r : String → String) (d d' : Diagram) : Prop where
  classes : List.Forall₂ (ClassNode.Renamed r) d.classes d'.classes
  relationships : List.Forall₂ (RelationshipEdge.Renamed r) d.relationships d'.relationships

end Diagram

instance (r : String → String) (c c' : ClassNode) : Decidable (c.Renamed r c') :=
  decidable_of_iff _ (ClassNode.renamed_iff r c c').symm

instance (r : String → String) (e e' : RelationshipEdge) : Decidable (e.Renamed r e') :=
  decidable_of_iff _ (RelationshipEdge.renamed_iff r e e').symm

instance (r : String → String) (d d' : Diagram) : Decidable (d.Renamed r d') :=
  decidable_of_iff _ (Diagram.renamed_iff r d d').symm

def Statement.isComment : Statement → Bool
  | .comment _ => true
  | _ => false

def RuleApplication.uncommented (a : RuleApplication) : RuleApplication where
  rule := a.rule
  edges := a.edges
  statements := a.statements.filter (!·.isComment)

private theorem exists_perm_of_injOn {r : String → String} {ids : List String}
    (hr : Set.InjOn r {id | id ∈ ids}) : ∃ g : Equiv.Perm String, ∀ id ∈ ids, g id = r id := by
  have hlt : Cardinal.mk {id | id ∈ ids} < Cardinal.mk String :=
    (List.finite_toSet ids).lt_aleph0.trans_le (Cardinal.aleph0_le_mk String)
  obtain ⟨g, hg⟩ := Cardinal.extend_function_of_lt ⟨Set.domRestrict _ r, hr.injective⟩ hlt
    ⟨Equiv.refl String⟩
  exact ⟨g, fun id hid => hg ⟨id, hid⟩⟩

private theorem Diagram.Renamed.congr {r g : String → String} {d d' : Diagram} (h : d.Renamed r d')
    (hg : ∀ id ∈ d.mentioned, g id = r id) : d.Renamed g d' where
  classes := by
    have hids : ∀ c ∈ d.classes, g c.id = r c.id := fun c hc =>
      hg _ (List.mem_append_left _ (List.mem_map_of_mem hc))
    refine ((List.forall₂_and_left _ _).mpr ⟨hids, h.classes⟩).imp ?_
    rintro c c' ⟨hc, h⟩
    exact ⟨h.id.trans hc.symm, h.name, h.attributes⟩
  relationships := by
    have hends : ∀ e ∈ d.relationships, g e.source = r e.source ∧ g e.target = r e.target := by
      intro e he
      constructor <;>
        exact hg _ (List.mem_append_right _ (List.mem_flatMap.mpr ⟨e, he, by simp⟩))
    refine ((List.forall₂_and_left _ _).mpr ⟨hends, h.relationships⟩).imp ?_
    rintro e e' ⟨⟨hs, ht⟩, h⟩
    exact ⟨h.kind, h.source.trans hs.symm, h.target.trans ht.symm, h.multiplicityFrom,
      h.multiplicityTo⟩

section Permuted
variable {r : Equiv.Perm String} {d d' : Diagram} {e e' : RelationshipEdge} {c c' : ClassNode}
  {policy : CollisionPolicy}

namespace RelationshipEdge.Renamed

private theorem isSelfReference (h : e.Renamed r e') : e'.isSelfReference = e.isSelfReference := by
  rw [RelationshipEdge.isSelfReference, RelationshipEdge.isSelfReference, h.source, h.target,
    r.injective.beq_eq]

private theorem ofKind (h : e.Renamed r e') (source target : String) :
    Strategy.ofKind e' source target = Strategy.ofKind e source target := by
  rw [Strategy.ofKind, Strategy.ofKind, h.kind, h.multiplicityFrom, h.multiplicityTo]

end RelationshipEdge.Renamed

section Names

private theorem lookup_renamed (r : Equiv.Perm String) (assigned : List (String × String)) (id : String) :
    (assigned.map fun x => (r x.1, x.2)).lookup (r id) = assigned.lookup id := by
  induction assigned with
  | nil => rfl
  | cons x assigned ih =>
    rw [List.map_cons, List.lookup_cons, List.lookup_cons, r.injective.beq_eq, ih]

private theorem assign_renamed (h : c.Renamed r c') (assigned : List (String × String)) :
    TableNames.assign policy (assigned.map fun x => (r x.1, x.2)) c' =
      (TableNames.assign policy assigned c).map fun x => (r x.1, x.2) := by
  have hname : TableNames.nameFor policy (assigned.map fun x => (r x.1, x.2)) c' =
      TableNames.nameFor policy assigned c := by
    simp [TableNames.nameFor, h.name, List.map_map, Function.comp_def]
  rw [TableNames.assign, TableNames.assign, h.id, lookup_renamed, hname]
  split
  · rfl
  · rw [List.map_append, List.map_singleton]

private theorem foldl_assign_renamed (policy : CollisionPolicy) {cs cs' : List ClassNode}
    (h : List.Forall₂ (ClassNode.Renamed r) cs cs') (assigned : List (String × String)) :
    cs'.foldl (TableNames.assign policy) (assigned.map fun x => (r x.1, x.2)) =
      (cs.foldl (TableNames.assign policy) assigned).map fun x => (r x.1, x.2) := by
  induction h generalizing assigned with
  | nil => rfl
  | cons hc _ ih => rw [List.foldl_cons, List.foldl_cons, assign_renamed hc, ih]

end Names

namespace Diagram.Renamed

private theorem ids (h : d.Renamed r d') : d'.ids = d.ids.map r := by
  rw [Diagram.ids, Diagram.ids, List.map_map]
  exact map_eq_of_forall₂ h.classes fun _ _ hc => hc.id

private theorem get?_resolve (h : d.Renamed r d') (policy : CollisionPolicy) (id : String) :
    (TableNames.resolve policy d').get? (r id) = (TableNames.resolve policy d).get? id := by
  have hassigned := foldl_assign_renamed policy h.classes []
  rw [TableNames.get?, TableNames.get?, TableNames.resolve, TableNames.resolve]
  exact hassigned ▸ lookup_renamed r _ id

private theorem contains_ids (h : d.Renamed r d') (id : String) :
    d'.ids.contains (r id) = d.ids.contains id := by
  rw [Bool.eq_iff_iff, List.contains_iff_mem, List.contains_iff_mem, h.ids,
    List.mem_map_of_injective r.injective]

private theorem qualifies (h : d.Renamed r d') (he : e.Renamed r e') : d'.qualifies e' = d.qualifies e := by
  rw [Diagram.qualifies, Diagram.qualifies, he.isSelfReference, he.multiplicityFrom,
    he.multiplicityTo, he.source, he.target, h.contains_ids, h.contains_ids]

private theorem links (h : d.Renamed r d') (s t : String) : d'.links (r s) (r t) = d.links s t := by
  have hcandidates : List.Forall₂ (Positioned (RelationshipEdge.Renamed r)) d.candidates d'.candidates :=
    List.rel_filter (fun _ _ hx => Bool.eq_iff_iff.mp (h.qualifies hx.1).symm)
      (forall₂_zipIdx h.relationships 0)
  refine map_eq_of_forall₂ (List.rel_filter (fun x x' hx => ?_) hcandidates) fun _ _ hx => hx.2
  simp only [hx.1.source, hx.1.target, Bool.and_eq_true, beq_iff_eq, r.injective.eq_iff]

end Diagram.Renamed

def RecursivePair.renamed (r : String → String) (p : RecursivePair) : RecursivePair :=
  { p with source := r p.source, target := r p.target }

private theorem RecursivePair.renamed_surjective (r : Equiv.Perm String) :
    Function.Surjective (RecursivePair.renamed r) :=
  fun p => ⟨p.renamed r.symm, by simp [renamed]⟩

namespace Diagram.Renamed

private theorem mem_pairs (h : d.Renamed r d') {p : RecursivePair} :
    p.renamed r ∈ d'.classify.pairs ↔ p ∈ d.classify.pairs := by
  rw [Diagram.mem_pairs, Diagram.mem_pairs, ← h.links]
  rfl

private theorem isJoin (h : d.Renamed r d') (id : String) : d'.IsJoin (r id) ↔ d.IsJoin id := by
  rw [IsJoin, IsJoin, (RecursivePair.renamed_surjective r).exists]
  exact exists_congr fun p => and_congr h.mem_pairs r.injective.eq_iff

private theorem isIntermediary (h : d.Renamed r d') (id : String) :
    d'.classify.isIntermediary (r id) = d.classify.isIntermediary id := by
  rw [Bool.eq_iff_iff, isIntermediary_iff, isIntermediary_iff, h.isJoin]

private theorem pairFor? (h : d.Renamed r d') (i : Nat) :
    d'.classify.pairFor? i = (d.classify.pairFor? i).map (RecursivePair.renamed r) := by
  cases hp : d.classify.pairFor? i with
  | none =>
    rw [Option.map_none, pairFor?_eq_none_iff]
    rintro ⟨p', hp', hi⟩
    obtain ⟨p, rfl⟩ := RecursivePair.renamed_surjective r p'
    exact pairFor?_eq_none_iff.mp hp ⟨p, h.mem_pairs.mp hp', hi⟩
  | some p =>
    obtain ⟨hp, hi⟩ := pairFor?_eq_some_iff.mp hp
    exact pairFor?_eq_some_iff.mpr ⟨h.mem_pairs.mpr hp, hi⟩

private theorem joinEnd? (h : d.Renamed r d') (he : e.Renamed r e') :
    Strategy.joinEnd? d'.classify e' = (Strategy.joinEnd? d.classify e).map r := by
  have hends : [e'.source, e'.target] = [e.source, e.target].map r := by
    rw [he.source, he.target]
    rfl
  rw [Strategy.joinEnd?, Strategy.joinEnd?, hends, List.find?_map]
  exact congrArg (Option.map r) (congrArg (List.find? · _) (funext h.isIntermediary))

end Diagram.Renamed

namespace Strategy

/-- The strategies differ at most in what comments say, and in the ids of a pair. -/
inductive Renamed (r : String → String) : Strategy → Strategy → Prop
  | same (s : Strategy) : Renamed r s s
  | skipJoinClass (source target join join' : String) :
      Renamed r (.skipJoinClass source target join) (.skipJoinClass source target join')
  | recursive (p : RecursivePair) (source target target' : String) :
      Renamed r (.recursive p source target) (.recursive (p.renamed r) source target')

variable {s s' : Strategy}

private theorem Renamed.apply_uncommented (h : Renamed r s s') (keys : PartKeys) (e e' : RelationshipEdge)
    (i : Nat) : (s'.apply keys e' i).uncommented = (s.apply keys e i).uncommented := by
  cases h with
  | same => cases s <;> rfl
  | _ => rfl

private theorem Renamed.after (h : Renamed r s s') (p : Progress) (i : Nat) : p.after i s' = p.after i s := by
  cases h <;> rfl

private theorem choose_renamed (h : d.Renamed r d') (policy : CollisionPolicy) (he : e.Renamed r e') (i : Nat) :
    Renamed r (choose (.resolve policy d) d.classify e i)
      (choose (.resolve policy d') d'.classify e' i) := by
  rw [choose, choose, he.source, he.target, h.get?_resolve, h.get?_resolve, h.pairFor?, h.joinEnd? he,
    he.isSelfReference]
  cases (TableNames.resolve policy d).get? e.source with
  | none => exact .same _
  | some source =>
    cases (TableNames.resolve policy d).get? e.target with
    | none => exact .same _
    | some target =>
      cases d.classify.pairFor? i with
      | none =>
        cases joinEnd? d.classify e with
        | some id => exact .skipJoinClass source target _ _
        | none =>
          simp only [Option.map_none, he.ofKind]
          exact .same _
      | some p =>
        cases joinEnd? d.classify e <;>
          by_cases hself : e.isSelfReference = true <;>
          simp only [hself, Option.map_none, Option.map_some, if_true, if_false, Bool.false_eq_true] <;>
          constructor

end Strategy

namespace Diagram

private theorem applyFrom_renamed (h : d.Renamed r d') (policy : CollisionPolicy)
    {es es' : List (RelationshipEdge × Nat)}
    (hes : List.Forall₂ (Positioned (RelationshipEdge.Renamed r)) es es') (p : Progress) :
    (applyFrom (.resolve policy d') d'.classify p es').map RuleApplication.uncommented =
      (applyFrom (.resolve policy d) d.classify p es).map RuleApplication.uncommented := by
  induction hes generalizing p with
  | nil => rfl
  | @cons x x' es es' hx _ ih =>
    obtain ⟨e, i⟩ := x
    obtain ⟨e', i'⟩ := x'
    obtain ⟨he, hi : i' = i⟩ := hx
    subst hi
    rw [applyFrom, applyFrom]
    split
    · exact ih p
    · have hs := Strategy.choose_renamed h policy he i'
      rw [List.map_cons, List.map_cons, hs.apply_uncommented p.keys e e', hs.after, ih]

private theorem Renamed.firstClasses (h : d.Renamed r d') :
    List.Forall₂ (ClassNode.Renamed r) d.firstClasses d'.firstClasses := by
  refine List.rel_filterMap ?_ (forall₂_zipIdx h.classes 0)
  rintro ⟨c, i⟩ ⟨c', i'⟩ ⟨hc, hi : i' = i⟩
  subst hi
  have hany : (d'.classes.take i').any (·.id == c'.id) = (d.classes.take i').any (·.id == c.id) := by
    refine any_eq_of_forall₂ (List.forall₂_take i' h.classes) fun b b' hb => ?_
    rw [hb.id, hc.id, r.injective.beq_eq]
  simp only [hany]
  split
  · exact .none
  · exact .some hc

private theorem tableBlock_renamed (h : d.Renamed r d') (policy : CollisionPolicy) (hc : c.Renamed r c') :
    tableBlock (.resolve policy d') c' = tableBlock (.resolve policy d) c := by
  have htable (name : String) : c'.table name = c.table name := by
    rw [ClassNode.table, ClassNode.table, hc.attributes]
  simp only [tableBlock, hc.id, h.get?_resolve, htable]

private theorem tableBlocks_renamed (h : d.Renamed r d') (policy : CollisionPolicy) :
    d'.tableBlocks (.resolve policy d') d'.classify = d.tableBlocks (.resolve policy d) d.classify := by
  have hclasses : List.Forall₂ (ClassNode.Renamed r)
      (d.firstClasses.filter fun c => !d.classify.isIntermediary c.id)
      (d'.firstClasses.filter fun c => !d'.classify.isIntermediary c.id) :=
    List.rel_filter (fun c c' hc => by simp only [hc.id, h.isIntermediary]) h.firstClasses
  have hblocks := map_eq_of_forall₂ hclasses fun c c' hc => tableBlock_renamed h policy hc
  simpa [tableBlocks, List.filterMap_map] using congrArg (List.filterMap id) hblocks

private theorem map_conflictsFrom_cons (owners cs : List ClassNode) (c : ClassNode) :
    (conflictsFrom owners (c :: cs)).map (·.tableName) =
      if owners.any fun o => TableName.ofClassName o.name == TableName.ofClassName c.name then
        TableName.ofClassName c.name :: (conflictsFrom owners cs).map (·.tableName)
      else (conflictsFrom (owners ++ [c]) cs).map (·.tableName) := by
  rw [conflictsFrom, ← List.isSome_find?]
  cases owners.find? _ <;> rfl

private theorem conflictsFrom_renamed {owners owners' cs cs' : List ClassNode}
    (ho : List.Forall₂ (ClassNode.Renamed r) owners owners')
    (hcs : List.Forall₂ (ClassNode.Renamed r) cs cs') :
    (conflictsFrom owners' cs').map (·.tableName) = (conflictsFrom owners cs).map (·.tableName) := by
  induction hcs generalizing owners owners' with
  | nil => rfl
  | @cons c c' cs cs' hc _ ih =>
    have hasked : (owners'.any fun o => TableName.ofClassName o.name == TableName.ofClassName c.name) =
        owners.any fun o => TableName.ofClassName o.name == TableName.ofClassName c.name :=
      any_eq_of_forall₂ ho fun o o' ho => by rw [ho.name]
    rw [map_conflictsFrom_cons, map_conflictsFrom_cons, hc.name, hasked, ih ho,
      ih (List.rel_append ho (.cons hc .nil))]

private theorem Renamed.invalidNames (h : d.Renamed r d') :
    d'.invalidNames.map (·.fault) = d.invalidNames.map (·.fault) := by
  have hfault (d : Diagram) : d.invalidNames.map (·.fault) =
      (d.classes.map (·.name)).filterMap fun name => TableName.fault? (Identifier.sanitize name) := by
    simp [Diagram.invalidNames, List.map_filterMap, List.filterMap_map, Function.comp_def]
  rw [hfault, hfault, map_eq_of_forall₂ h.classes fun _ _ hc => hc.name]

section Cycles
open Inheritance

private theorem linked_renamed {links : Links} {x y : String} :
    Linked (links.map (Prod.map r r)) (r x) (r y) ↔ Linked links x y :=
  List.mem_map_of_injective (r.injective.prodMap r.injective) (a := (x, y))

private theorem path?_renamed (links : Links) (x y : String) :
    (path? (links.map (Prod.map r r)) (r x) (r y)).isSome = (path? links x y).isSome := by
  rw [Bool.eq_iff_iff, path?_isSome_iff, path?_isSome_iff]
  constructor
  · intro h
    have hback (a b : String) (hab : Linked (links.map (Prod.map r r)) a b) :
        Linked links (r.symm a) (r.symm b) :=
      linked_renamed.mp (by rwa [r.apply_symm_apply, r.apply_symm_apply])
    have hreaches : Relation.ReflTransGen (Linked links) (r.symm (r x)) (r.symm (r y)) :=
      Relation.ReflTransGen.lift r.symm hback _ _ h
    rwa [r.symm_apply_apply, r.symm_apply_apply] at hreaches
  · exact Relation.ReflTransGen.lift r (fun _ _ hab => linked_renamed.mpr hab) x y

private theorem map_cyclesFrom_cons (links : Links) (e : RelationshipEdge) (i : Nat)
    (rest : List (RelationshipEdge × Nat)) :
    (cyclesFrom links ((e, i) :: rest)).map (·.edge) =
      if isInheritance e then
        (if (path? links e.target e.source).isSome then [i] else []) ++
          (cyclesFrom ((e.source, e.target) :: links) rest).map (·.edge)
      else (cyclesFrom links rest).map (·.edge) := by
  rw [cyclesFrom]
  split
  · cases path? links e.target e.source <;> rfl
  · rfl

private theorem cyclesFrom_renamed {es es' : List (RelationshipEdge × Nat)}
    (hes : List.Forall₂ (Positioned (RelationshipEdge.Renamed r)) es es') (links : Links) :
    (cyclesFrom (links.map (Prod.map r r)) es').map (·.edge) = (cyclesFrom links es).map (·.edge) := by
  induction hes generalizing links with
  | nil => rfl
  | @cons x x' es es' hx _ ih =>
    obtain ⟨e, i⟩ := x
    obtain ⟨e', i'⟩ := x'
    obtain ⟨he, hi : i' = i⟩ := hx
    have hkind : isInheritance e' = isInheritance e := by
      rw [isInheritance, isInheritance, he.kind, he.isSelfReference]
    have hlater := ih ((e.source, e.target) :: links)
    rw [List.map_cons, Prod.map_apply] at hlater
    rw [map_cyclesFrom_cons, map_cyclesFrom_cons, hkind, hi, he.source, he.target, path?_renamed,
      hlater, ih]

end Cycles

private theorem Renamed.inheritanceCycles (h : d.Renamed r d') :
    d'.inheritanceCycles.map (·.edge) = d.inheritanceCycles.map (·.edge) :=
  cyclesFrom_renamed (forall₂_zipIdx h.relationships 0) []

private theorem Renamed.warnings (h : d.Renamed r d') (policy : CollisionPolicy) :
    (d'.warnings policy).length = (d.warnings policy).length := by
  have hconflicts := congrArg List.length (conflictsFrom_renamed .nil h.classes)
  have hinvalid := congrArg List.length h.invalidNames
  have hcycles := congrArg List.length h.inheritanceCycles
  simp only [List.length_map] at hconflicts hinvalid hcycles
  simp only [Diagram.warnings, TableNames.resolve, namingConflicts, List.length_append,
    List.length_map, hconflicts, hinvalid, hcycles]

end Diagram

end Permuted

namespace Diagram
variable {r : String → String} {d d' : Diagram}

private theorem filter_statements_eq (d : Diagram) (policy : CollisionPolicy) :
    (d.statements policy).filter (!·.isComment) =
      (d.tableBlocks (.resolve policy d) d.classify).flatten.filter (!·.isComment) ++
        ((d.applications (.resolve policy d) d.classify).map RuleApplication.uncommented).flatMap
          (·.statements) := by
  rw [statements, List.filter_append, List.filter_flatMap, List.flatMap_map]
  rfl

private theorem statistics_renamed (h : d.Renamed r d') {applications applications' : List RuleApplication}
    (ha : applications'.map RuleApplication.uncommented =
      applications.map RuleApplication.uncommented) :
    d'.statistics applications' = d.statistics applications := by
  have hcount (as : List RuleApplication) : (as.filter fun a => a.rule = .manyToMany).length =
      ((as.map RuleApplication.uncommented).filter fun a => a.rule = .manyToMany).length := by
    rw [List.filter_map, List.length_map]
    rfl
  rw [statistics, statistics, hcount, hcount applications, ha, h.classes.length_eq,
    h.relationships.length_eq]

/-- Ids only tell classes apart, so those of a diagram may be replaced by others as long as different
ones stay different. Labels and methods may be any. But for comments, the same is generated, and just
as much is warned of. -/
theorem generate_renamed (hr : Set.InjOn r {id | id ∈ d.mentioned}) (h : d.Renamed r d')
    (options : Options) (stamp : Moment) :
    let generation := d.generate options stamp
    let generation' := d'.generate options stamp
    generation'.statistics = generation.statistics ∧
    generation'.appliedRules.map RuleApplication.uncommented =
      generation.appliedRules.map RuleApplication.uncommented ∧
    (d'.statements options.collisionPolicy).filter (!·.isComment) =
      (d.statements options.collisionPolicy).filter (!·.isComment) ∧
    generation'.warnings.length = generation.warnings.length := by
  obtain ⟨g, hg⟩ := exists_perm_of_injOn hr
  replace h := h.congr hg
  have hrules := applyFrom_renamed h options.collisionPolicy (forall₂_zipIdx h.relationships 0) .start
  refine ⟨?_, hrules, ?_, h.warnings options.collisionPolicy⟩
  · exact statistics_renamed h hrules
  · rw [filter_statements_eq, filter_statements_eq, tableBlocks_renamed h, applications, applications,
      hrules]

/-- A join class with its pair, a part in a whole, a cycle, and an edge that ends nowhere. -/
def knownIds : Diagram where
  classes := [⟨"p", "Person", ["name: string"], ["greet()"]⟩, ⟨"k", "Knows", [], []⟩,
    ⟨"c", "Club", [], ["open()"]⟩, ⟨"d", "Club", [], []⟩, ⟨"p", "Twin", [], []⟩]
  relationships := [⟨.association, "p", "k", .one, .many, "from"⟩,
    ⟨.composition, "c", "p", .unspecified, .unspecified, "in"⟩,
    ⟨.association, "p", "k", .one, .many, "to"⟩, .bare .generalization "c" "d",
    .bare .generalization "d" "c", .bare .aggregation "d" "nowhere"]

/-- The same with an empty id, ids like the names of tables, and ids of others. -/
def hostileIds : Diagram where
  classes := [⟨"", "Person", ["name: string"], []⟩, ⟨"person", "Knows", [], ["drop()"]⟩,
    ⟨"d", "Club", [], []⟩, ⟨"id; --", "Club", [], ["id"]⟩, ⟨"", "Twin", [], ["greet()"]⟩]
  relationships := [⟨.association, "", "person", .one, .many, ""⟩,
    ⟨.composition, "d", "", .unspecified, .unspecified, "';"⟩,
    ⟨.association, "", "person", .one, .many, "1"⟩, .bare .generalization "d" "id; --",
    .bare .generalization "id; --" "d", .bare .aggregation "id; --" "club"]

def toHostile (id : String) : String :=
  ([("p", ""), ("k", "person"), ("c", "d"), ("d", "id; --"), ("nowhere", "club")].lookup id).getD id

/-- Empty ids, and ids like the names of tables, lead to the same script. -/
theorem hostileIds_generate_alike :
    Set.InjOn toHostile {id | id ∈ knownIds.mentioned} ∧ knownIds.Renamed toHostile hostileIds ∧
      (hostileIds.generate .standard ⟨0, false⟩).statistics =
        (knownIds.generate .standard ⟨0, false⟩).statistics ∧
      (hostileIds.generate .standard ⟨0, false⟩).appliedRules.map RuleApplication.uncommented =
        (knownIds.generate .standard ⟨0, false⟩).appliedRules.map RuleApplication.uncommented ∧
      (hostileIds.statements .warn).filter (!·.isComment) =
        (knownIds.statements .warn).filter (!·.isComment) ∧
      (hostileIds.generate .standard ⟨0, false⟩).warnings.length =
        (knownIds.generate .standard ⟨0, false⟩).warnings.length := by
  have hr : Set.InjOn toHostile {id | id ∈ knownIds.mentioned} := by
    have h : ∀ x ∈ knownIds.mentioned, ∀ y ∈ knownIds.mentioned, toHostile x = toHostile y → x = y := by
      decide
    exact h
  have h : knownIds.Renamed toHostile hostileIds := by decide
  exact ⟨hr, h, generate_renamed hr h .standard ⟨0, false⟩⟩

end Diagram
end SchemaSynth
