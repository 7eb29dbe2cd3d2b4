import SchemaSynth.Proofs.Prescriptions
import SchemaSynth.Proofs.Identifiers
import SchemaSynth.Proofs.Reapplication
import SchemaSynth.Proofs.StoredTables

/-! Whether names tell apart the foreign keys and indexes that a script adds. One of a name that is
taken is not added, as the statement for it does nothing where there is one of its name. -/
namespace SchemaSynth

/-- A foreign key that a rule adds. Its name ends with a word, as far as there is room for it. -/
structure WordedKey where
  word : String
  table : String
  column : String
  referenced : String
  onDelete : OnDelete
deriving DecidableEq

namespace WordedKey

def stem (table : String) : String := "fk_" ++ table ++ "_"

def key (w : WordedKey) : ForeignKey :=
  ⟨Identifier.truncate (stem w.table ++ w.word), w.table, w.column, w.referenced, w.onDelete⟩

def shown (w : WordedKey) : List Char :=
  Text.takeBytes (Identifier.maxBytes - Text.byteLength (stem w.table).toList) w.word.toList

private theorem name_ne_primaryKeyName (w : WordedKey) :
    w.key.name ≠ Statement.primaryKeyName w.table := by
  intro h
  have hprefix := Text.takeBytes_prefix_self Identifier.maxBytes (stem w.table ++ w.word).toList
  have hname : (Text.takeBytes Identifier.maxBytes (stem w.table ++ w.word).toList) =
      (Statement.primaryKeyName w.table).toList := by
    rw [← h, key, Identifier.truncate, String.toList_ofList]
  rw [hname] at hprefix
  obtain ⟨rest, hrest⟩ := hprefix
  have hat := congrArg (·[w.table.toList.length + 3]?) hrest
  simp [Statement.primaryKeyName, stem] at hat

private theorem name_eq_iff {w w' : WordedKey} (htable : w.table = w'.table) :
    w.key.name = w'.key.name ↔ w.shown = w'.shown := by
  simp only [key, shown, htable]
  exact Identifier.truncate_append_eq_iff

end WordedKey

def Reference.worded (r : Reference) : WordedKey :=
  ⟨r.referenced, r.table, Strategy.referenceColumn r.referenced, r.referenced, r.onDelete⟩

namespace Statement

def addedKeys : Statement → List ForeignKey
  | .addForeignKey k => [k]
  | _ => []

def addedIndexes : Statement → List Index
  | .createIndex i => [i]
  | _ => []

private theorem mem_addedKeys {st : Statement} {k : ForeignKey} :
    k ∈ st.addedKeys ↔ st = .addForeignKey k := by
  cases st <;> simp [addedKeys, eq_comm]

private theorem mem_addedIndexes {st : Statement} {i : Index} :
    i ∈ st.addedIndexes ↔ st = .createIndex i := by
  cases st <;> simp [addedIndexes, eq_comm]

end Statement

namespace Rule
open Strategy

/-- The foreign keys that a rule adds to the tables at the ends of an edge. Those of join tables are
made with their tables. -/
def keys (e : RelationshipEdge) (source target : String) : Rule → List WordedKey
  | .selfReference => [⟨"parent", source, "parent_id", source, .setNull⟩]
  | .recursiveManyToMany => []
  | .manyToMany => []
  | r => (r.references e source target).map (·.worded)

def indexes (_ : RelationshipEdge) (source target : String) : Rule → List Index
  | .generalization =>
    [.named ("idx_" ++ target ++ "_" ++ referenceColumn source) target (referenceColumn source),
      .named ("idx_" ++ target ++ "_tipo") target (Identifier.truncate ("tipo_" ++ target))]
  | _ => []

private theorem reading_indexes : Reading Statement.addedIndexes indexes where
  comment _ := rfl
  missing _ _ _ := rfl
  selfReference _ _ := fun _ => rfl
  recursive _ _ _ := rfl
  ofKind h _ _ := by cases h <;> rfl

private theorem reading_keys :
    Reading Statement.addedKeys fun e source target r => (r.keys e source target).map (·.key) where
  comment _ := rfl
  missing _ _ _ := rfl
  selfReference e source target := by
    have hname : "fk_" ++ source ++ ("_" ++ "parent") = WordedKey.stem source ++ "parent" :=
      String.append_assoc.symm
    exact congrArg (fun name => [ForeignKey.mk (Identifier.truncate name) source "parent_id" source
      .setNull]) hname
  recursive _ _ _ := rfl
  ofKind {e source target s} h f columns := by
    have hreferences : Statement.referencesOf (s.statements f columns) =
        s.rule.references e source target := h.references
    cases h with
    | manyToMany => rfl
    | _ => exact congrArg (fun rs => (rs.map Reference.worded).map WordedKey.key) hreferences

end Rule

attribute [ext] ForeignKey Index

/-- Foreign keys of one name on one table are one key, and indexes of one name are one index. -/
structure GuardsFaithful (statements : List Statement) : Prop where
  keys : ∀ k, .addForeignKey k ∈ statements → ∀ k', .addForeignKey k' ∈ statements →
    k.table = k'.table → k.name = k'.name →
      k.column = k'.column ∧ k.referencedTable = k'.referencedTable ∧ k.onDelete = k'.onDelete
  indexes : ∀ i, .createIndex i ∈ statements → ∀ i', .createIndex i' ∈ statements →
    i.name = i'.name → i.table = i'.table ∧ i.column = i'.column

structure Database.Holds (db : Database) (statements : List Statement) : Prop where
  keys : ∀ k, .addForeignKey k ∈ statements → ∃ t, db.tables k.table = some t ∧ k ∈ t.foreignKeys
  indexes : ∀ i, .createIndex i ∈ statements → db.indexes i.name = some i

namespace Diagram
open Statement Strategy
variable {d : Diagram} {policy : CollisionPolicy} {k : ForeignKey} {i : Index} {name : String}
  {built : Database}

/-- The keys that the rules of two edges prescribe for one table have different words, as far as
these are shown, or are one key; and the indexes have different names, or are one index. -/
structure NamesApart (d : Diagram) (policy : CollisionPolicy) : Prop where
  keys : ∀ w, d.Prescribed policy Rule.keys w → ∀ w', d.Prescribed policy Rule.keys w' →
    w.table = w'.table → w.shown = w'.shown →
      w.column = w'.column ∧ w.referenced = w'.referenced ∧ w.onDelete = w'.onDelete
  indexes : ∀ i, d.Prescribed policy Rule.indexes i → ∀ i', d.Prescribed policy Rule.indexes i' →
    i.name = i'.name → i.table = i'.table ∧ i.column = i'.column

private theorem mem_statements_iff {α : Type} {g : Statement → List α} {statement : α → Statement}
    {x : α} {f : RelationshipEdge → String → String → Rule → List α} (hreading : Reading g f)
    (hmem : ∀ {st x}, x ∈ g st ↔ st = statement x) (hne : ∀ t, statement x ≠ .createTable t) :
    statement x ∈ d.statements policy ↔ d.Prescribed policy f x := by
  have hread : x ∈ (d.statements policy).flatMap g ↔ statement x ∈ d.statements policy := by
    simp [List.mem_flatMap, hmem]
  rw [← hread, hreading.mem_script_iff, or_iff_right]
  rintro ⟨_, _, _, _, _, hx⟩
  exact hne _ (hmem.mp hx).symm

private theorem addForeignKey_mem_iff :
    .addForeignKey k ∈ d.statements policy ↔ ∃ w, d.Prescribed policy Rule.keys w ∧ w.key = k := by
  rw [mem_statements_iff Rule.reading_keys mem_addedKeys nofun]
  constructor
  · rintro ⟨i, e, r, source, target, he, hr, hs, ht, hk⟩
    obtain ⟨w, hw, hwk⟩ := List.mem_map.mp hk
    exact ⟨w, ⟨i, e, r, source, target, he, hr, hs, ht, hw⟩, hwk⟩
  · rintro ⟨w, ⟨i, e, r, source, target, he, hr, hs, ht, hw⟩, rfl⟩
    exact ⟨i, e, r, source, target, he, hr, hs, ht, List.mem_map_of_mem hw⟩

private theorem createIndex_mem_iff :
    .createIndex i ∈ d.statements policy ↔ d.Prescribed policy Rule.indexes i :=
  mem_statements_iff Rule.reading_indexes mem_addedIndexes nofun

private theorem guardsFaithful_statements_iff :
    GuardsFaithful (d.statements policy) ↔ d.NamesApart policy := by
  constructor
  · intro h
    constructor
    · intro w hw w' hw' htable hshown
      refine h.keys w.key (addForeignKey_mem_iff.mpr ⟨w, hw, rfl⟩) w'.key
        (addForeignKey_mem_iff.mpr ⟨w', hw', rfl⟩) htable ?_
      exact WordedKey.name_eq_iff htable |>.mpr hshown
    · intro i hi i' hi'
      exact h.indexes i (createIndex_mem_iff.mpr hi) i' (createIndex_mem_iff.mpr hi')
  · intro h
    constructor
    · intro k hk k' hk' htable hname
      obtain ⟨w, hw, rfl⟩ := addForeignKey_mem_iff.mp hk
      obtain ⟨w', hw', rfl⟩ := addForeignKey_mem_iff.mp hk'
      exact h.keys w hw w' hw' htable (WordedKey.name_eq_iff htable |>.mp hname)
    · intro i hi i' hi'
      exact h.indexes i (createIndex_mem_iff.mp hi) i' (createIndex_mem_iff.mp hi')

private theorem exists_keysAdded (hrun : Database.empty.run (d.statements policy) = some built)
    (hname : d.HasClassTable policy name) :
    ∃ t, built.tables name = some t ∧ Database.KeysAdded (d.statements policy) name t := by
  rw [statements, synthesize, Database.run_append] at hrun
  obtain ⟨before, hbefore, hafter⟩ := Option.bind_eq_some_iff.mp hrun
  have hbare := Database.bare_of_run hbefore
    (fun st hst => by
      obtain ⟨c, _, _, name, _, rfl | rfl⟩ := mem_tableBlocks.mp hst
      · exact Or.inl ⟨_, rfl⟩
      · exact Or.inr ⟨_, rfl, rfl, rfl⟩)
    (fun _ _ h => nomatch h)
  have hthere : (before.tables name).isSome :=
    Database.isSome_tables_of_run hbefore (Or.inr (creates_tableBlocks.mpr hname))
  obtain ⟨t, ht⟩ := Option.isSome_iff_exists.mp hthere
  obtain ⟨hkeys, hchecks⟩ := hbare name t ht
  have hadded : Database.KeysAdded (d.statements policy) name t :=
    ⟨hchecks, by simp [hkeys], by simp [hkeys]⟩
  exact hadded.run ht hafter (List.subset_append_right _ _)

private theorem guardsFaithful_of_holds
    (hrun : Database.empty.run (d.statements policy) = some built)
    (h : built.Holds (d.statements policy)) : GuardsFaithful (d.statements policy) := by
  constructor
  · intro k hk k' hk' htable hname
    obtain ⟨t, ht, hadded⟩ := exists_keysAdded hrun (hasClassTable_of_altered hk rfl)
    obtain ⟨u, hu, hku⟩ := h.keys k hk
    obtain ⟨u', hu', hku'⟩ := h.keys k' hk'
    rw [htable] at hu
    obtain rfl : u = u' := Option.some.inj (hu.symm.trans hu')
    rw [htable] at ht
    obtain rfl : t = u := Option.some.inj (ht.symm.trans hu)
    obtain rfl : k = k' := List.inj_on_of_nodup_map hadded.names_nodup hku hku' hname
    exact ⟨rfl, rfl, rfl⟩
  · intro i hi i' hi' hname
    have hindex := h.indexes i hi
    rw [hname, h.indexes i' hi'] at hindex
    obtain rfl := Option.some.inj hindex
    exact ⟨rfl, rfl⟩

private theorem holds_of_guardsFaithful
    (hrun : Database.empty.run (d.statements policy) = some built)
    (h : GuardsFaithful (d.statements policy)) : built.Holds (d.statements policy) := by
  have hsettled := Database.settled_of_run hrun (d.keys_grow policy)
  constructor
  · intro k hk
    obtain ⟨t, ht, hadded⟩ := exists_keysAdded hrun (hasClassTable_of_altered hk rfl)
    obtain ⟨u, hu, hname⟩ := hsettled _ hk
    obtain rfl : t = u := Option.some.inj (ht.symm.trans hu)
    obtain ⟨w, _, rfl⟩ := addForeignKey_mem_iff.mp hk
    rw [StoredTable.constraintNames, hadded.checks, List.map_nil, List.append_nil, List.mem_cons,
      or_iff_right (show w.key.name ≠ primaryKeyName w.key.table from w.name_ne_primaryKeyName)]
      at hname
    obtain ⟨k', hk', hkname⟩ := List.mem_map.mp hname
    obtain ⟨htable, hmem⟩ := hadded.added k' hk'
    obtain ⟨hcolumn, hreferenced, hdelete⟩ := h.keys k' hmem w.key hk htable hkname
    have heq : k' = w.key := ForeignKey.ext hkname htable hcolumn hreferenced hdelete
    exact ⟨t, ht, heq ▸ hk'⟩
  · intro i hi
    obtain ⟨j, hj⟩ := Option.isSome_iff_exists.mp (hsettled _ hi).2
    rcases Database.index_of_run hrun hj with hnone | ⟨hname, hmem⟩
    · cases hnone
    · obtain ⟨htable, hcolumn⟩ := h.indexes j hmem i hi hname
      have heq : j = i := Index.ext hname htable hcolumn
      exact heq ▸ hj

/-- The guards of a script are faithful just if the words tell apart the keys that the rules
prescribe, and the names tell apart the indexes. Only then the database that the script builds has
all of them. -/
theorem guards_faithful_iff (d : Diagram) (policy : CollisionPolicy) :
    (GuardsFaithful (d.statements policy) ↔ d.NamesApart policy) ∧
      ∃ built, Database.empty.run (d.statements policy) = some built ∧
        (built.Holds (d.statements policy) ↔ GuardsFaithful (d.statements policy)) := by
  obtain ⟨built, hrun⟩ := d.exists_built policy
  exact ⟨guardsFaithful_statements_iff, built, hrun, guardsFaithful_of_holds hrun,
    holds_of_guardsFaithful hrun⟩

/-- Persons refer to themselves, and to a class whose name is the word for that. -/
def parentOfPersons : Diagram where
  classes := [⟨"p", "Person", [], []⟩, ⟨"q", "Parent", [], []⟩]
  relationships := [.bare .association "p" "p", ⟨.association, "q", "p", .one, .many, ""⟩]

/-- The two keys have one name. The second is passed over, and nothing refers to the other class. -/
theorem parentOfPersons_loses_foreign_key : parentOfPersons.ids.Nodup ∧
    ¬ GuardsFaithful (parentOfPersons.statements .suffix) := by
  refine ⟨by decide, fun h => ?_⟩
  have hreferenced := (h.keys ⟨"fk_person_parent", "person", "parent_id", "person", .setNull⟩
    (by decide) ⟨"fk_person_parent", "person", "parent_id", "parent", .setNull⟩ (by decide) rfl
    rfl).2.1
  exact absurd hreferenced (by decide)

example : ((Database.empty.run (parentOfPersons.statements .suffix)).bind (·.tables "person")).map
    (·.foreignKeys.map (·.referencedTable)) = some ["person"] := by decide

end Diagram
end SchemaSynth
