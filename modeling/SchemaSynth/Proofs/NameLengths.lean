import SchemaSynth.Proofs.IntroducedColumns
import Mathlib.Tactic.MkIffOfInductiveProp

/-! Which names of a script are within the limit of the database. A longer one is stored cut, and a
guard that looks for the whole name does not find it. -/
namespace SchemaSynth
open Identifier

namespace Identifier
variable {s name : String}

def Fits (name : String) : Prop := Text.byteLength name.toList ≤ maxBytes

instance : DecidablePred Fits := fun name =>
  inferInstanceAs (Decidable (Text.byteLength name.toList ≤ maxBytes))

private theorem fits_truncate (s : String) : Fits (truncate s) :=
  byteLength_truncate_le s

private theorem fits_joined (parts : List String) : Fits (joined parts) :=
  fits_truncate _

private theorem fits_suffixed (base : String) (h : Fits s) : Fits (suffixed base s) :=
  byteLength_suffixed_le base h

private theorem fits_referenceColumn (table : String) : Fits (Strategy.referenceColumn table) :=
  fits_suffixed table (by decide)

private theorem fits_primaryKeyName_iff {table : String} :
    Fits (Statement.primaryKeyName table) ↔ Text.byteLength table.toList ≤ 58 := by
  have hlength : Text.byteLength (Statement.primaryKeyName table).toList =
      Text.byteLength table.toList + 5 := by
    rw [Statement.primaryKeyName, String.toList_append, Text.byteLength_append]
    rfl
  rw [Fits, hlength, maxBytes]
  omega

end Identifier

namespace Statement

def tableNames : Statement → List String
  | .comment _ => []
  | .createTable t => t.name :: t.foreignKeys.flatMap fun k => [k.table, k.referencedTable]
  | .addColumn table _ => [table]
  | .addForeignKey k => [k.table, k.referencedTable]
  | .replacePrimaryKey table _ => [table]
  | .createIndex i => [i.table]

def constraintNames : Statement → List String
  | .createTable t => t.foreignKeys.map (·.name) ++ t.checks.map (·.name)
  | .addForeignKey k => [k.name]
  | .replacePrimaryKey table _ => [primaryKeyName table]
  | _ => []

def indexNames : Statement → List String
  | .createIndex i => [i.name]
  | _ => []

/-- The columns that a statement introduces or is about. -/
def columnNames (s : Statement) : List String :=
  s.columns.map (·.2.name) ++ s.mentioned.map (·.2)

end Statement

def PartKeys.Fit (keys : PartKeys) : Prop :=
  ∀ part, ∀ column ∈ keys.keyOf part, Fits column

private theorem PartKeys.fit_nil : Fit [] := by
  intro part column hcolumn
  obtain rfl := List.mem_singleton.mp hcolumn
  decide

private theorem PartKeys.Fit.after {keys : PartKeys} (h : keys.Fit) (s : Strategy) : (s.keysAfter keys).Fit :=
  forall_keyOf_keysAfter (fun whole _ _ => fits_referenceColumn whole) h

namespace Strategy
open Statement
variable {e : RelationshipEdge} {i : Nat} {s : Strategy} {keys : PartKeys} {st : Statement}
  {name : String}

/-- All that a rule names is within the limit, but for the tables that it is for, which may be longer,
and the keys that it replaces. -/
@[mk_iff]
structure Short (s : Strategy) (st : Statement) : Prop where
  tables : ∀ name ∈ st.tableNames, name ∈ s.tables ∨ Fits name
  constraints : ∀ name ∈ st.constraintNames, Fits name ∨
    ∃ table columns, st = .replacePrimaryKey table columns ∧ name = primaryKeyName table
  indexes : ∀ name ∈ st.indexNames, Fits name
  introduced : ∀ x ∈ st.columns, Fits x.2.name

private theorem short_statements (s : Strategy) (e : RelationshipEdge) (key : List String) :
    ∀ st ∈ s.statements e key, s.Short st := by
  have hkey : Fits "id" := by decide
  have hparent : Fits "parent_id" := by decide
  have hfirst (table : String) : Fits (suffixed table "_id1") := fits_suffixed table (by decide)
  have hsecond (table : String) : Fits (suffixed table "_id2") := fits_suffixed table (by decide)
  cases s <;>
    simp [-Prod.forall, short_iff, statements, selfReferenceStatements, compositionStatements,
      generalizationStatements, referenceOn, skipped, recursiveTable, joinTable, tables, tableNames,
      constraintNames, indexNames, columns, ForeignKey.between, ForeignKey.named, Index.named,
      Column.reference, Column.plain, Column.surrogateKey, Column.withDefault, fits_joined,
      fits_truncate, fits_referenceColumn, hkey, hparent, hfirst, hsecond]

private theorem fits_column (hkeys : keys.Fit) (htables : ∀ table ∈ s.tables, Plain table)
    (hst : st ∈ (s.apply keys e i).statements) (hname : name ∈ st.columnNames) : Fits name := by
  rcases List.mem_append.mp hname with hintroduced | hmentioned
  · obtain ⟨x, hx, rfl⟩ := List.mem_map.mp hintroduced
    exact (short_statements s e (s.partKey keys) st hst).introduced x hx
  · obtain ⟨⟨table, _⟩, hx, rfl⟩ := List.mem_map.mp hmentioned
    obtain ⟨before, after, hsplit⟩ := List.append_of_mem hst
    rcases follows_mentioned e keys htables before st after hsplit table _ hx with
      ⟨st', hst', c, hc, rfl⟩ | ⟨_, hkey⟩
    · have hmem : st' ∈ (s.apply keys e i).statements := by
        rw [hsplit, List.append_cons]
        exact List.mem_append_left _ hst'
      exact (short_statements s e (s.partKey keys) st' hmem).introduced _ hc
    · exact hkeys table _ hkey

end Strategy

namespace Diagram
open Strategy Statement
variable {d : Diagram} {policy : CollisionPolicy} {st : Statement} {name : String}

/-- All names of a script are within the limit: those of tables, constraints and indexes, and those of
the columns that come of relationships. -/
structure NamesFit (d : Diagram) (policy : CollisionPolicy) : Prop where
  tables : ∀ st ∈ d.statements policy, ∀ name ∈ st.tableNames, Fits name
  constraints : ∀ st ∈ d.statements policy, ∀ name ∈ st.constraintNames, Fits name
  indexes : ∀ st ∈ d.statements policy, ∀ name ∈ st.indexNames, Fits name
  columns : ∀ a ∈ d.applications (.resolve policy d) d.classify, ∀ st ∈ a.statements,
    ∀ name ∈ st.columnNames, Fits name

private theorem fits_tableNames (h : policy = .warn ∨ d.classes.length < Nat.pow 2 31 - 3)
    (hst : st ∈ d.statements policy) (hname : name ∈ st.tableNames) : Fits name := by
  have hfits {id table : String} (hid : (TableNames.resolve policy d).get? id = some table) :
      Fits table := TableNames.byteLength_of_get?_resolve h hid
  rcases mem_statements.mp hst with hst | ⟨a, ha, hst⟩
  · obtain ⟨c, _, _, table, htable, rfl | rfl⟩ := mem_tableBlocks.mp hst
    · cases hname
    · obtain rfl := List.mem_singleton.mp hname
      exact hfits htable
  · obtain ⟨e, i, s, keys, _, _, hsuits, rfl⟩ := exists_of_mem_applications ha
    rcases (short_statements s e _ st hst).tables name hname with htable | hshort
    · obtain ⟨id, hid⟩ := hsuits.exists_id name htable
      exact hfits hid
    · exact hshort

private theorem fits_constraintNames (hst : st ∈ d.statements policy) (hname : name ∈ st.constraintNames) :
    Fits name ∨
      ∃ table columns, st = .replacePrimaryKey table columns ∧ name = primaryKeyName table := by
  rcases mem_statements.mp hst with hst | ⟨a, ha, hst⟩
  · obtain ⟨c, _, _, table, _, rfl | rfl⟩ := mem_tableBlocks.mp hst <;> cases hname
  · obtain ⟨e, i, s, keys, _, _, _, rfl⟩ := exists_of_mem_applications ha
    exact (short_statements s e _ st hst).constraints name hname

private theorem fits_indexNames (hst : st ∈ d.statements policy) (hname : name ∈ st.indexNames) :
    Fits name := by
  rcases mem_statements.mp hst with hst | ⟨a, ha, hst⟩
  · obtain ⟨c, _, _, table, _, rfl | rfl⟩ := mem_tableBlocks.mp hst <;> cases hname
  · obtain ⟨e, i, s, keys, _, _, _, rfl⟩ := exists_of_mem_applications ha
    exact (short_statements s e _ st hst).indexes name hname

private theorem fits_columnNames {a : RuleApplication}
    (ha : a ∈ d.applications (.resolve policy d) d.classify) (hst : st ∈ a.statements)
    (hname : name ∈ st.columnNames) : Fits name := by
  rw [applications_eq_carryOut] at ha
  obtain ⟨e, i, keys, hleading, hkeys, rfl⟩ := exists_of_mem_carryOut (P := PartKeys.Fit)
    (fun _ _ _ hkeys => hkeys.after _) PartKeys.fit_nil ha
  have hsuits := choose_suits policy (mem_leading.mp hleading).1
  exact fits_column hkeys hsuits.plain_tables hst hname

/-- The names of a script are within the limit, if the tables are and no composition has a part of
more than 58 bytes. The tables are, whatever their classes are called. The only constraints that can
be too long are the keys of parts: the name of such a key is made of the whole name of the table. -/
theorem names_fit_iff (d : Diagram) (policy : CollisionPolicy) :
    (d.NamesFit policy ↔ (∀ st ∈ d.statements policy, ∀ name ∈ st.tableNames, Fits name) ∧
      ∀ i part, d.ComposesInto policy i part → Text.byteLength part.toList ≤ 58) ∧
    (policy = .warn ∨ d.classes.length < Nat.pow 2 31 - 3 →
      ∀ st ∈ d.statements policy, ∀ name ∈ st.tableNames, Fits name) ∧
    (∀ st ∈ d.statements policy, ∀ name ∈ st.constraintNames ++ st.indexNames, Fits name ∨
      ∃ table columns, st = .replacePrimaryKey table columns ∧ name = primaryKeyName table) ∧
    ∀ a ∈ d.applications (.resolve policy d) d.classify, ∀ st ∈ a.statements,
      ∀ name ∈ st.columnNames, Fits name := by
  refine ⟨⟨?_, ?_⟩, fun h _ hst _ => fits_tableNames h hst, ?_, fun _ ha _ hst _ =>
    fits_columnNames ha hst⟩
  · intro h
    refine ⟨h.tables, fun i part hcomposed => ?_⟩
    obtain ⟨columns, hreplaced⟩ := exists_replacePrimaryKey_iff.mpr ⟨i, hcomposed⟩
    exact fits_primaryKeyName_iff.mp (h.constraints _ hreplaced _ (List.mem_singleton_self _))
  · rintro ⟨htables, hparts⟩
    refine ⟨htables, fun st hst name hname => ?_, fun _ hst _ => fits_indexNames hst,
      fun _ ha _ hst _ => fits_columnNames ha hst⟩
    rcases fits_constraintNames hst hname with hfits | ⟨table, columns, rfl, rfl⟩
    · exact hfits
    · obtain ⟨i, hcomposed⟩ := exists_replacePrimaryKey_iff.mp ⟨columns, hst⟩
      exact fits_primaryKeyName_iff.mpr (hparts i table hcomposed)
  · intro st hst name hname
    rcases List.mem_append.mp hname with hname | hname
    · exact fits_constraintNames hst hname
    · exact Or.inl (fits_indexNames hst hname)

def longPart : Diagram where
  classes := [⟨"a", "A", [], []⟩, ⟨"b", String.ofList (List.replicate 60 'b'), [], []⟩]
  relationships := [.bare .composition "a" "b"]

/-- The key of the part has a name of 65 bytes. -/
theorem longPart_key_too_long : ¬ longPart.NamesFit .warn := by
  intro h
  have hreplaced : .replacePrimaryKey (String.ofList (List.replicate 60 'b')) ["id", "a_id"] ∈
      longPart.statements .warn := by decide
  exact absurd (h.constraints _ hreplaced _ (List.mem_singleton_self _)) (by decide)

end Diagram
end SchemaSynth
