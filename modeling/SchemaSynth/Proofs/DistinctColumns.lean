import SchemaSynth.Proofs.ColumnClashes
import SchemaSynth.Proofs.TableAccounts

/-! Whether the columns of a table are of different names. The database refuses a table that has two
columns of one name. -/
namespace SchemaSynth

def Table.ColumnsDistinct (t : Table) : Prop :=
  (t.columns.map (·.name)).Nodup

instance : DecidablePred Table.ColumnsDistinct := fun t =>
  inferInstanceAs (Decidable (t.columns.map (·.name)).Nodup)

namespace ClassNode
variable {c : ClassNode} {name other : String} {names : List String}

def attributeNames (c : ClassNode) : List String :=
  c.attributes.map fun raw => (Attribute.parse raw).1

def columnName (name : String) : String :=
  if name = "id" then "attr_id" else name

private theorem name_attributeColumn (raw : String) :
    (attributeColumn raw).name = columnName (Attribute.parse raw).1 := rfl

private theorem columnName_eq_iff : columnName name = columnName other ↔ name = other ∨
    name = "id" ∧ other = "attr_id" ∨ name = "attr_id" ∧ other = "id" := by
  unfold columnName
  split_ifs with hname hother hother
  · simp [hname, hother]
  · subst hname
    simp [Ne.symm hother, eq_comm]
  · subst hother
    simp [hname]
  · simp [hname, hother]

private theorem nodup_map_columnName_iff :
    (names.map columnName).Nodup ↔ names.Nodup ∧ ¬ ("id" ∈ names ∧ "attr_id" ∈ names) := by
  constructor
  · intro h
    refine ⟨h.of_map _, ?_⟩
    rintro ⟨hid, hattr⟩
    have heq : "id" = "attr_id" := List.inj_on_of_nodup_map h hid hattr (by decide)
    exact absurd heq (by decide)
  · rintro ⟨hnodup, hfree⟩
    refine hnodup.map_on ?_
    intro name hname other hother heq
    rcases columnName_eq_iff.mp heq with heq | ⟨rfl, rfl⟩ | ⟨rfl, rfl⟩
    · exact heq
    · exact absurd ⟨hname, hother⟩ hfree
    · exact absurd ⟨hother, hname⟩ hfree

/-- The columns of a class are of different names if its attributes are, unless one attribute is
called `id` and another has the name that `id` is changed to. -/
theorem table_columns_distinct_iff (c : ClassNode) (name : String) :
    (c.table name).ColumnsDistinct ↔
      c.attributeNames.Nodup ∧ ¬ ("id" ∈ c.attributeNames ∧ "attr_id" ∈ c.attributeNames) := by
  by_cases hempty : c.attributes = []
  · have hnames : c.attributeNames = [] := by simp [attributeNames, hempty]
    simp [Table.ColumnsDistinct, table, Table.plain, hempty, hnames, Column.plain,
      Column.surrogateKey]
  have hcolumns : (c.table name).columns.map (·.name) = "id" :: c.attributeNames.map columnName := by
    simp [table, Table.plain, hempty, Column.surrogateKey, attributeNames, name_attributeColumn]
  have hkey : "id" ∉ c.attributeNames.map columnName := by
    intro hmem
    obtain ⟨declared, hdeclared, hid⟩ := List.mem_map.mp hmem
    obtain ⟨raw, _, rfl⟩ := List.mem_map.mp hdeclared
    exact attributeColumn_name_ne_id raw hid
  rw [Table.ColumnsDistinct, hcolumns, List.nodup_cons, and_iff_right hkey, nodup_map_columnName_iff]

def renamedOnto : ClassNode := ⟨"1", "Product", ["id: int", "attr_id: text"], []⟩

/-- Two attributes with different names come to one column. -/
theorem renamedOnto_repeats_column : renamedOnto.attributeNames.Nodup ∧
    ¬ (renamedOnto.table "product").ColumnsDistinct := by
  decide

end ClassNode

namespace Strategy
open Identifier
variable {source target : String}

/-- What a column that refers to a table keeps of the name of the table. -/
def columnStem (table : String) : List Char :=
  table.toList.take 60

private theorem referenceColumn_eq_iff (hsource : Plain source) (htarget : Plain target) :
    referenceColumn source = referenceColumn target ↔ columnStem source = columnStem target := by
  rw [referenceColumn, referenceColumn, suffixed_eq_iff, takeBytes_of_plain hsource.chars,
    takeBytes_of_plain htarget.chars]
  rfl

private theorem joinTable_columnsDistinct_iff (hsource : Plain source) (htarget : Plain target) :
    (joinTable source target).ColumnsDistinct ↔ columnStem source ≠ columnStem target := by
  have hnames : (joinTable source target).columns.map (·.name) =
      ["id", referenceColumn source, referenceColumn target] := rfl
  rw [Table.ColumnsDistinct, hnames, Ne, ← referenceColumn_eq_iff hsource htarget]
  simp [Ne.symm (referenceColumn_ne_id source), Ne.symm (referenceColumn_ne_id target)]

private theorem joinTable_uniqueKeys_nodup_iff (hsource : Plain source) (htarget : Plain target) :
    (∀ key ∈ (joinTable source target).uniqueKeys, key.Nodup) ↔
      columnStem source ≠ columnStem target := by
  have hkeys : (joinTable source target).uniqueKeys =
      [[referenceColumn source, referenceColumn target]] := rfl
  rw [hkeys, Ne, ← referenceColumn_eq_iff hsource htarget]
  simp

private theorem recursiveTable_columnsDistinct (source : String) :
    (recursiveTable source).ColumnsDistinct := by
  have hne : suffixed source "_id1" ≠ suffixed source "_id2" := by
    have hlength : Text.byteLength "_id1".toList = Text.byteLength "_id2".toList := by decide
    rw [suffixed, suffixed, hlength, Ne, ← String.toList_inj, String.toList_append,
      String.toList_append, List.append_cancel_left_eq]
    decide
  have hnames : (recursiveTable source).columns.map (·.name) =
      [suffixed source "_id1", suffixed source "_id2"] := rfl
  rw [Table.ColumnsDistinct, hnames]
  simpa using hne

end Strategy

def Rule.tables (source target : String) : Rule → List Table
  | .recursiveManyToMany => [Strategy.recursiveTable source]
  | .manyToMany => [Strategy.joinTable source target]
  | _ => []

private theorem Rule.reading_tables :
    Reading (fun st => st.table?.toList) fun _ source target r => r.tables source target where
  comment _ := rfl
  missing _ _ _ := rfl
  selfReference _ _ := fun _ => rfl
  recursive _ _ _ := rfl
  ofKind h _ _ := by cases h <;> rfl

namespace Diagram
open Strategy
variable {d : Diagram} {policy : CollisionPolicy} {source target : String}

private theorem RuleBetween.plain {i : Nat} {r : Rule} (h : d.RuleBetween policy i r source target) :
    Identifier.Plain source ∧ Identifier.Plain target := by
  obtain ⟨_, _, _, hs, ht⟩ := h
  exact ⟨TableNames.plain_of_get?_resolve hs, TableNames.plain_of_get?_resolve ht⟩

private theorem mem_tablesOf_applications {t : Table} :
    t ∈ Statement.tablesOf
        ((d.applications (.resolve policy d) d.classify).flatMap (·.statements)) ↔
      ∃ i r source target, d.RuleBetween policy i r source target ∧ t ∈ r.tables source target := by
  have hread : t ∈ Statement.tablesOf
      ((d.applications (.resolve policy d) d.classify).flatMap (·.statements)) ↔
        ∃ st ∈ (d.applications (.resolve policy d) d.classify).flatMap (·.statements),
          t ∈ st.table?.toList := by
    simp [Statement.tablesOf]
  rw [hread, Rule.reading_tables.exists_mem_applications_iff, prescribed_iff]

/-- The columns of a join table are of different names, and so are those that are unique together,
unless the names of the two tables agree in their first sixty characters. -/
theorem join_columns_distinct_iff (d : Diagram) (policy : CollisionPolicy) :
    (∀ id id' source target, (TableNames.resolve policy d).get? id = some source →
      (TableNames.resolve policy d).get? id' = some target →
        ((joinTable source target).ColumnsDistinct ↔ columnStem source ≠ columnStem target) ∧
        ((∀ key ∈ (joinTable source target).uniqueKeys, key.Nodup) ↔
          columnStem source ≠ columnStem target)) ∧
    ((∀ t ∈ Statement.tablesOf
        ((d.applications (.resolve policy d) d.classify).flatMap (·.statements)),
      t.ColumnsDistinct) ↔
        ∀ i source target, d.RuleBetween policy i .manyToMany source target →
          columnStem source ≠ columnStem target) := by
  refine ⟨fun id id' source target hs ht => ?_, ?_⟩
  · have hsource := TableNames.plain_of_get?_resolve hs
    have htarget := TableNames.plain_of_get?_resolve ht
    exact ⟨joinTable_columnsDistinct_iff hsource htarget,
      joinTable_uniqueKeys_nodup_iff hsource htarget⟩
  constructor
  · intro h i source target hrule
    have hmem := mem_tablesOf_applications.mpr ⟨i, _, source, target, hrule, List.mem_singleton_self _⟩
    exact (joinTable_columnsDistinct_iff hrule.plain.1 hrule.plain.2).mp (h _ hmem)
  · intro h t ht
    obtain ⟨i, r, source, target, hrule, hmem⟩ := mem_tablesOf_applications.mp ht
    cases r with
    | recursiveManyToMany =>
      rw [List.mem_singleton.mp hmem]
      exact recursiveTable_columnsDistinct source
    | manyToMany =>
      rw [List.mem_singleton.mp hmem]
      exact (joinTable_columnsDistinct_iff hrule.plain.1 hrule.plain.2).mpr
        (h i source target hrule)
    | _ => cases hmem

def longNames : Diagram where
  classes := [⟨"a", String.ofList (List.replicate 61 'b'), [], []⟩,
    ⟨"b", String.ofList (List.replicate 62 'b'), [], []⟩]
  relationships := [⟨.association, "a", "b", .many, .many, ""⟩]

/-- The two tables have different names, and one column refers to both. -/
theorem longNames_share_column : ∃ source target,
    (TableNames.resolve .warn longNames).get? "a" = some source ∧
    (TableNames.resolve .warn longNames).get? "b" = some target ∧ source ≠ target ∧
    ¬ (joinTable source target).ColumnsDistinct ∧
    ¬ ∀ key ∈ (joinTable source target).uniqueKeys, key.Nodup := by
  have hsource : (TableNames.resolve .warn longNames).get? "a" =
      some (String.ofList (List.replicate 61 'b')) := by decide +kernel
  have htarget : (TableNames.resolve .warn longNames).get? "b" =
      some (String.ofList (List.replicate 62 'b')) := by decide +kernel
  have hstem : columnStem (String.ofList (List.replicate 61 'b')) =
      columnStem (String.ofList (List.replicate 62 'b')) := by decide +kernel
  have hplain := TableNames.plain_of_get?_resolve hsource
  have hplain' := TableNames.plain_of_get?_resolve htarget
  refine ⟨_, _, hsource, htarget, by decide +kernel, ?_, ?_⟩
  · rw [joinTable_columnsDistinct_iff hplain hplain']
    exact not_not_intro hstem
  · rw [joinTable_uniqueKeys_nodup_iff hplain hplain']
    exact not_not_intro hstem

end Diagram
end SchemaSynth
