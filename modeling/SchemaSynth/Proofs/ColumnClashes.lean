import SchemaSynth.Proofs.AssignedNames
import SchemaSynth.Proofs.Prescriptions
import SchemaSynth.Proofs.Reapplication
import SchemaSynth.Proofs.StoredTables

/-! Whether the statements of a script agree on the columns that they introduce. A column is not
added to a table that has one of its name, whatever that one is like. -/
namespace SchemaSynth

/-- Columns, with their tables, that are of one type, and both nullable or neither, if they are of
one name on one table. -/
def Column.Agree (x y : String × Column) : Prop :=
  x.1 = y.1 → x.2.name = y.2.name → x.2.type = y.2.type ∧ x.2.nullable = y.2.nullable

def Statement.ColumnsAgree (s s' : Statement) : Prop :=
  ∀ x ∈ s.columns, ∀ y ∈ s'.columns, Column.Agree x y

instance : DecidableRel Column.Agree := fun x y =>
  inferInstanceAs (Decidable
    (x.1 = y.1 → x.2.name = y.2.name → x.2.type = y.2.type ∧ x.2.nullable = y.2.nullable))

instance : DecidableRel Statement.ColumnsAgree := fun s s' =>
  inferInstanceAs (Decidable (∀ x ∈ s.columns, ∀ y ∈ s'.columns, Column.Agree x y))

private theorem Column.Agree.symm {x y : String × Column} (h : Column.Agree x y) : Column.Agree y x :=
  fun htable hname => (h htable.symm hname.symm).imp Eq.symm Eq.symm

instance : Std.Symm Statement.ColumnsAgree :=
  ⟨fun _ _ h x hx y hy => (h y hy x hx).symm⟩

/-- A column as no attribute makes it: the key `id`, or one of another name and of a type that
attributes do not have. A column for data of any shape is none either. -/
def Column.Generated (c : Column) : Prop :=
  c = .surrogateKey ∨ c.name ≠ "id" ∧ c.name ≠ "data" ∧ (c.type = .bigInt ∨ c.type = .varchar 50)

def Column.IsReference (c : Column) : Prop :=
  ∃ name nullable, name ≠ "id" ∧ name ≠ "data" ∧ c = .reference name nullable

private theorem Column.IsReference.generated {c : Column} (h : c.IsReference) : c.Generated := by
  obtain ⟨name, nullable, hid, hdata, rfl⟩ := h
  exact Or.inr ⟨hid, hdata, Or.inl rfl⟩

private theorem Column.IsReference.default? {c : Column} (h : c.IsReference) : c.default? = none := by
  obtain ⟨name, nullable, _, _, rfl⟩ := h
  rfl

def Strategy.discriminator (child : String) : Column :=
  (Column.plain (Identifier.truncate ("tipo_" ++ child)) (.varchar 50)).withDefault
    ("'" ++ child ++ "'")

def Reference.nullableColumn (r : Reference) : String × Column :=
  (r.table, .reference (Strategy.referenceColumn r.referenced) true)

namespace Rule
open Strategy
variable {e : RelationshipEdge} {source target : String} {r : Rule} {x : String × Column}

/-- The columns that a rule introduces, those of join tables included. -/
def columns (e : RelationshipEdge) (source target : String) : Rule → List (String × Column)
  | .selfReference => [(source, .reference "parent_id" true)]
  | .recursiveManyToMany => Statement.columns (.createTable (recursiveTable source))
  | .composition => [(target, .reference (referenceColumn source) false)]
  | .generalization =>
    [(target, .reference (referenceColumn source) true),
      (target, (Column.plain (Identifier.truncate ("tipo_" ++ target)) (.varchar 50)).withDefault
        ("'" ++ target ++ "'"))]
  | .manyToMany => Statement.columns (.createTable (joinTable source target))
  | r => (r.references e source target).map (·.nullableColumn)

/-- The columns that statements add to an existing table are those their rules prescribe. -/
theorem reading_columns : Reading Statement.columns columns where
  comment _ := rfl
  missing _ _ _ := rfl
  selfReference _ _ := fun _ => rfl
  recursive _ _ _ := rfl
  ofKind {e source target s} h f key := by
    have hreferences : Statement.referencesOf (s.statements f key) =
        s.rule.references e source target := h.references
    cases h with
    | composition => rfl
    | generalization => rfl
    | manyToMany => rfl
    | _ => exact congrArg (List.map Reference.nullableColumn) hreferences

private theorem isReference_suffixed {suffix : String} (base : String) (nullable : Bool)
    (hid : ¬ suffix.toList <:+ "id".toList) (hdata : ¬ suffix.toList <:+ "data".toList) :
    (Column.reference (Identifier.suffixed base suffix) nullable).IsReference :=
  ⟨_, nullable, Identifier.suffixed_ne hid, Identifier.suffixed_ne hdata, rfl⟩

private theorem isReference_referenceColumn (table : String) (nullable : Bool) :
    (Column.reference (referenceColumn table) nullable).IsReference :=
  isReference_suffixed table nullable (by decide) (by decide)

private theorem cases_of_mem_columns (h : x ∈ r.columns e source target) :
    x.2 = .surrogateKey ∨ x.2.IsReference ∨ r = .generalization ∧ x = (target, discriminator target) := by
  have hreferences (rs : List Reference) (hx : x ∈ rs.map (·.nullableColumn)) : x.2.IsReference := by
    obtain ⟨y, _, rfl⟩ := List.mem_map.mp hx
    exact isReference_referenceColumn _ _
  cases r with
  | selfReference =>
    rw [List.mem_singleton.mp h]
    exact Or.inr (Or.inl ⟨"parent_id", true, by decide, by decide, rfl⟩)
  | recursiveManyToMany =>
    obtain ⟨c, hc, rfl⟩ := List.mem_map.mp h
    rcases List.mem_pair.mp hc with rfl | rfl
    · exact Or.inr (Or.inl (isReference_suffixed source false (by decide) (by decide)))
    · exact Or.inr (Or.inl (isReference_suffixed source false (by decide) (by decide)))
  | composition =>
    rw [List.mem_singleton.mp h]
    exact Or.inr (Or.inl (isReference_referenceColumn source false))
  | generalization =>
    rcases List.mem_pair.mp h with rfl | rfl
    · exact Or.inr (Or.inl (isReference_referenceColumn source true))
    · exact Or.inr (Or.inr ⟨rfl, rfl⟩)
  | manyToMany =>
    obtain ⟨c, hc, rfl⟩ := List.mem_map.mp h
    rcases List.mem_cons.mp hc with rfl | hc
    · exact Or.inl rfl
    · rcases List.mem_pair.mp hc with rfl | rfl
      · exact Or.inr (Or.inl (isReference_referenceColumn source false))
      · exact Or.inr (Or.inl (isReference_referenceColumn target false))
  | _ => exact Or.inr (Or.inl (hreferences _ h))

private theorem generated_of_mem_columns (h : x ∈ r.columns e source target) : x.2.Generated := by
  rcases cases_of_mem_columns h with hkey | hreference | ⟨_, rfl⟩
  · exact Or.inl hkey
  · exact hreference.generated
  · have hstart : Text.byteLength "tipo_".toList ≤ Identifier.maxBytes := by decide
    have hid : Identifier.truncate ("tipo_" ++ target) ≠ "id" :=
      Identifier.truncate_append_ne hstart (by decide)
    have hdata : Identifier.truncate ("tipo_" ++ target) ≠ "data" :=
      Identifier.truncate_append_ne hstart (by decide)
    exact Or.inr ⟨hid, hdata, Or.inr rfl⟩

/-- No column but the one that tells the kind of a child has a default. -/
theorem default_of_mem_columns (h : x ∈ r.columns e source target) :
    x.2.default? = none ∨ r = .generalization ∧ x = (target, discriminator target) := by
  rcases cases_of_mem_columns h with hkey | hreference | hkind
  · exact Or.inl (hkey ▸ rfl)
  · exact Or.inl hreference.default?
  · exact Or.inr hkind

end Rule

private theorem Attribute.typeOfWord_mem (word : String) :
    typeOfWord word ∈ [ColumnType.integer, .numeric, .boolean, .timestamp, .text] := by
  unfold typeOfWord
  dsimp only
  split_ifs <;> decide

namespace ClassNode
variable {c : ClassNode} {raw name : String} {x : String × Column}

/-- An attribute never takes the name of the key. -/
theorem attributeColumn_name_ne_id (raw : String) : (attributeColumn raw).name ≠ "id" := by
  rw [attributeColumn]
  dsimp only [Column.plain]
  split
  · decide
  · assumption

private theorem attributeColumn_type (raw : String) : (attributeColumn raw).type ∈
    [ColumnType.integer, .numeric, .boolean, .timestamp, .text] := by
  change (Attribute.parse raw).2 ∈ _
  unfold Attribute.parse
  dsimp only
  split
  · dsimp only
    exact Attribute.typeOfWord_mem _
  · simp

/-- The columns of a class table are its key, one for each attribute, and the one for data if there is none.
-/
theorem mem_columns_table :
    x ∈ Statement.columns (.createTable (c.table name)) ↔ x.1 = name ∧ (x.2 = .surrogateKey ∨
      c.attributes = [] ∧ x.2 = .plain "data" .jsonb ∨
        ∃ raw ∈ c.attributes, attributeColumn raw = x.2) := by
  have hcolumns : x ∈ Statement.columns (.createTable (c.table name)) ↔
      x.1 = name ∧ x.2 ∈ (c.table name).columns := by
    obtain ⟨other, column⟩ := x
    simp only [Statement.columns, List.mem_map, Prod.mk.injEq]
    constructor
    · rintro ⟨_, hmem, rfl, rfl⟩
      exact ⟨rfl, hmem⟩
    · rintro ⟨rfl, hmem⟩
      exact ⟨column, hmem, rfl, rfl⟩
  rw [hcolumns, table]
  dsimp only [Table.plain]
  split
  · rename_i hempty
    simp [hempty]
  · rename_i hattributes
    simp [hattributes]

private theorem agree_attribute_iff (hx : x.2.Generated) :
    Column.Agree (name, attributeColumn raw) x ↔
      (x.1 = name → x.2.name ≠ (attributeColumn raw).name) := by
  have htype := attributeColumn_type raw
  constructor
  · intro h htable hname
    have htypes : (attributeColumn raw).type = x.2.type := (h htable.symm hname.symm).1
    rw [htypes] at htype
    rcases hx with hkey | ⟨_, _, hbig | hvarchar⟩
    · rw [hkey] at hname
      exact attributeColumn_name_ne_id raw hname.symm
    · simp [hbig] at htype
    · simp [hvarchar] at htype
  · intro h htable hname
    exact absurd hname.symm (h htable.symm)

private theorem agree_table_iff (hx : x.2.Generated) :
    (∀ y ∈ Statement.columns (.createTable (c.table name)), Column.Agree y x) ↔
      ∀ raw ∈ c.attributes, x.1 = name → x.2.name ≠ (attributeColumn raw).name := by
  constructor
  · intro h raw hraw
    rw [← agree_attribute_iff hx]
    exact h _ (mem_columns_table.mpr ⟨rfl, Or.inr (Or.inr ⟨raw, hraw, rfl⟩)⟩)
  · rintro h ⟨table, column⟩ hy
    obtain ⟨rfl, hcolumn⟩ := mem_columns_table.mp hy
    rcases hcolumn with rfl | ⟨_, rfl⟩ | ⟨raw, hraw, rfl⟩
    · intro _ hname
      rcases hx with hkey | ⟨hid, _⟩
      · rw [hkey]
        exact ⟨rfl, rfl⟩
      · exact absurd hname.symm hid
    · intro _ hname
      rcases hx with hkey | ⟨_, hdata, _⟩
      · rw [hkey] at hname
        exact absurd (show "data" = "id" from hname) (by decide)
      · exact absurd hname.symm hdata
    · exact (agree_attribute_iff hx).mpr (h raw hraw)

end ClassNode

namespace Strategy
variable {e : RelationshipEdge} {s : Strategy} {key : List String} {st : Statement} {t : Table}
  {c : Column}

private theorem column_of_createTable (h : .createTable t ∈ s.statements e key) (hc : c ∈ t.columns) :
    c = .surrogateKey ∨ ∃ name, name ≠ "id" ∧ c = .reference name false := by
  cases s with
  | recursive pair source target =>
    obtain rfl : t = recursiveTable source := by simpa [statements] using h
    rcases List.mem_pair.mp hc with rfl | rfl
    · exact Or.inr ⟨_, Identifier.suffixed_ne (by decide), rfl⟩
    · exact Or.inr ⟨_, Identifier.suffixed_ne (by decide), rfl⟩
  | manyToMany source target =>
    obtain rfl : t = joinTable source target := by simpa [statements] using h
    rcases List.mem_cons.mp hc with rfl | hc
    · exact Or.inl rfl
    · rcases List.mem_pair.mp hc with rfl | rfl
      · exact Or.inr ⟨_, referenceColumn_ne_id source, rfl⟩
      · exact Or.inr ⟨_, referenceColumn_ne_id target, rfl⟩
  | _ =>
    simp [statements, selfReferenceStatements, compositionStatements, generalizationStatements,
      referenceOn, skipped] at h

private theorem columnsAgree_self (hst : st ∈ s.statements e key) : st.ColumnsAgree st := by
  cases st with
  | createTable t =>
    intro x hx y hy htable hname
    obtain ⟨c, hc, rfl⟩ := List.mem_map.mp hx
    obtain ⟨c', hc', rfl⟩ := List.mem_map.mp hy
    rcases column_of_createTable hst hc with rfl | ⟨name, hne, rfl⟩
    · rcases column_of_createTable hst hc' with rfl | ⟨name', hne', rfl⟩
      · exact ⟨rfl, rfl⟩
      · exact absurd hname.symm hne'
    · rcases column_of_createTable hst hc' with rfl | ⟨name', hne', rfl⟩
      · exact absurd hname hne
      · exact ⟨rfl, rfl⟩
  | addColumn table c =>
    intro x hx y hy _ _
    rw [List.mem_singleton.mp hx, List.mem_singleton.mp hy]
    exact ⟨rfl, rfl⟩
  | _ =>
    intro x hx
    cases hx

end Strategy

/-- Every column that is added to a table is there with the type it was to have, and nullable or not
as it was to be. -/
def Database.AddedAsTold (db : Database) (statements : List Statement) : Prop :=
  ∀ table c, .addColumn table c ∈ statements → ∃ t, db.tables table = some t ∧
    c.name ∈ t.columnNames ∧
      ∀ c' ∈ t.columns, c'.name = c.name → c'.type = c.type ∧ c'.nullable = c.nullable

namespace Diagram
open Statement
variable {d : Diagram} {policy : CollisionPolicy} {built : Database}

/-- No edge prescribes a column of the name of an attribute for the table of a class, and columns
that edges prescribe are alike if they are of one name on one table. -/
structure ColumnsApart (d : Diagram) (policy : CollisionPolicy) : Prop where
  attributes : ∀ c ∈ d.firstClasses, ¬ d.IsJoin c.id → ∀ name,
    (TableNames.resolve policy d).get? c.id = some name → ∀ x, d.Prescribed policy Rule.columns x →
      ∀ raw ∈ c.attributes, x.1 = name → x.2.name ≠ (ClassNode.attributeColumn raw).name
  prescribed : ∀ x, d.Prescribed policy Rule.columns x → ∀ y, d.Prescribed policy Rule.columns y →
    Column.Agree x y

private theorem Prescribed.generated {x : String × Column} (h : d.Prescribed policy Rule.columns x) :
    x.2.Generated := by
  obtain ⟨_, _, _, _, _, _, _, _, _, hx⟩ := h
  exact Rule.generated_of_mem_columns hx

private theorem applications_columnsAgree_iff :
    ((d.applications (.resolve policy d) d.classify).flatMap (·.statements)).Pairwise ColumnsAgree ↔
      ∀ x, d.Prescribed policy Rule.columns x → ∀ y, d.Prescribed policy Rule.columns y →
        Column.Agree x y := by
  constructor
  · intro h x hx y hy
    obtain ⟨st, hst, hx⟩ := Rule.reading_columns.exists_mem_applications_iff.mpr hx
    obtain ⟨st', hst', hy⟩ := Rule.reading_columns.exists_mem_applications_iff.mpr hy
    by_cases heq : st = st'
    · subst heq
      obtain ⟨a, ha, hmem⟩ := List.mem_flatMap.mp hst
      obtain ⟨e, i, s, keys, _, _, _, rfl⟩ := exists_of_mem_applications ha
      exact Strategy.columnsAgree_self hmem x hx y hy
    · exact h.forall hst hst' heq x hx y hy
  · intro h
    apply List.pairwise_of_forall_mem_list
    intro st hst st' hst' x hx y hy
    exact h x (Rule.reading_columns.exists_mem_applications_iff.mp ⟨st, hst, hx⟩) y
      (Rule.reading_columns.exists_mem_applications_iff.mp ⟨st', hst', hy⟩)

private theorem firstClasses_pairwise_ne (d : Diagram) :
    d.firstClasses.Pairwise fun c c' => c.id ≠ c'.id := by
  rw [firstClasses, List.pairwise_filterMap, List.pairwise_iff_getElem]
  intro i j hi hj hij c hc c' hc' heq
  simp only [List.getElem_zipIdx, Nat.zero_add] at hc hc'
  split at hc
  · cases hc
  · split at hc'
    · cases hc'
    · rename_i hfirst
      obtain rfl := Option.some.inj hc
      obtain rfl := Option.some.inj hc'
      apply hfirst
      rw [List.any_eq_true]
      refine ⟨_, List.mem_take_iff_getElem.mpr ⟨i, by simp at hi; omega, rfl⟩, ?_⟩
      exact beq_iff_eq.mpr heq

private theorem tableBlocks_columnsAgree (d : Diagram) :
    (d.tableBlocks (.resolve .suffix d) d.classify).flatten.Pairwise ColumnsAgree := by
  rw [List.pairwise_flatten]
  constructor
  · intro block hblock
    obtain ⟨c, _, hc⟩ := List.mem_filterMap.mp hblock
    obtain ⟨name, _, rfl⟩ := Option.map_eq_some_iff.mp hc
    simp [ColumnsAgree, columns]
  · rw [tableBlocks, List.pairwise_filterMap]
    refine (d.firstClasses_pairwise_ne.sublist List.filter_sublist).imp ?_
    intro c c' hne block hblock block' hblock' st hst st' hst' x hx y hy htable
    obtain ⟨name, hn, rfl⟩ := Option.map_eq_some_iff.mp hblock
    obtain ⟨name', hn', rfl⟩ := Option.map_eq_some_iff.mp hblock'
    rcases List.mem_pair.mp hst with rfl | rfl
    · cases hx
    · rcases List.mem_pair.mp hst' with rfl | rfl
      · cases hy
      · rw [(ClassNode.mem_columns_table.mp hx).1, (ClassNode.mem_columns_table.mp hy).1] at htable
        subst htable
        exact absurd (TableNames.get?_resolve_suffix_injective hn hn') hne

private theorem tables_agree_applications_iff :
    (∀ st ∈ (d.tableBlocks (.resolve policy d) d.classify).flatten,
      ∀ st' ∈ (d.applications (.resolve policy d) d.classify).flatMap (·.statements),
        ColumnsAgree st st') ↔
      ∀ c ∈ d.firstClasses, ¬ d.IsJoin c.id → ∀ name,
        (TableNames.resolve policy d).get? c.id = some name →
          ∀ x, d.Prescribed policy Rule.columns x →
            ∀ raw ∈ c.attributes, x.1 = name → x.2.name ≠ (ClassNode.attributeColumn raw).name := by
  constructor
  · intro h c hc hj name hn x hx
    rw [← ClassNode.agree_table_iff hx.generated]
    intro y hy
    obtain ⟨st', hst', hx⟩ := Rule.reading_columns.exists_mem_applications_iff.mpr hx
    exact h _ (mem_tableBlocks.mpr ⟨c, hc, hj, name, hn, Or.inr rfl⟩) st' hst' y hy x hx
  · intro h st hst st' hst' y hy x hx
    obtain ⟨c, hc, hj, name, hn, rfl | rfl⟩ := mem_tableBlocks.mp hst
    · cases hy
    · have hprescribed := Rule.reading_columns.exists_mem_applications_iff.mp ⟨st', hst', hx⟩
      have hagree := (ClassNode.agree_table_iff hprescribed.generated).mpr
        (h c hc hj name hn x hprescribed)
      exact hagree y hy

private theorem addedAsTold_of_columnsAgree
    (hrun : Database.empty.run (d.statements policy) = some built)
    (h : (d.statements policy).Pairwise ColumnsAgree) :
    built.AddedAsTold (d.statements policy) := by
  intro table c hadd
  obtain ⟨t, ht, hname⟩ := Database.settled_of_run hrun (d.keys_grow policy) _ hadd
  refine ⟨t, ht, hname, fun c' hc' hsame => ?_⟩
  rcases Database.column_of_run hrun ht hc' with ⟨_, hnone, _⟩ | ⟨st, hst, hmem⟩
  · cases hnone
  · by_cases heq : st = .addColumn table c
    · subst heq
      obtain rfl : c' = c := congrArg Prod.snd (List.mem_singleton.mp hmem)
      exact ⟨rfl, rfl⟩
    · exact h.forall hst hadd heq _ hmem _ (List.mem_singleton_self _) rfl hsame

/-- The statements of a script agree on their columns unless an attribute has the name of a column
that an edge prescribes, or two edges prescribe different columns of one name. If they agree, the
database that the script builds has every column as the statement that adds it says. -/
theorem columns_agree_iff (d : Diagram) :
    ((d.statements .suffix).Pairwise ColumnsAgree ↔ d.ColumnsApart .suffix) ∧
      ∃ built, Database.empty.run (d.statements .suffix) = some built ∧
        ((d.statements .suffix).Pairwise ColumnsAgree →
          built.AddedAsTold (d.statements .suffix)) := by
  obtain ⟨built, hrun⟩ := d.exists_built .suffix
  refine ⟨?_, built, hrun, addedAsTold_of_columnsAgree hrun⟩
  refine List.pairwise_append.trans ?_
  rw [applications_columnsAgree_iff, tables_agree_applications_iff]
  constructor
  · rintro ⟨_, hprescribed, hattributes⟩
    exact ⟨hattributes, hprescribed⟩
  · rintro ⟨hattributes, hprescribed⟩
    exact ⟨d.tableBlocks_columnsAgree, hprescribed, hattributes⟩

/-- A part with an attribute that has the name of the reference to its whole. -/
def attributeLikeReference : Diagram where
  classes := [⟨"a", "A", [], []⟩, ⟨"b", "B", ["a_id: text"], []⟩]
  relationships := [.bare .composition "a" "b"]

/-- The part keeps the text, which may be null, and gets no column for the reference. -/
theorem attributeLikeReference_keeps_attribute : attributeLikeReference.ids.Nodup ∧
    ¬ (attributeLikeReference.statements .suffix).Pairwise ColumnsAgree := by
  decide

example : ((Database.empty.run (attributeLikeReference.statements .suffix)).bind (·.tables "b")).map
    (·.columns.map fun c => (c.name, c.type, c.nullable)) =
      some [("id", .bigSerial, false), ("a_id", .text, true)] := by decide

end Diagram
end SchemaSynth
