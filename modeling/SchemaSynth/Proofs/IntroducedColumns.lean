import SchemaSynth.Proofs.Reapplication
import SchemaSynth.Proofs.SafeStatements
import SchemaSynth.Proofs.StoredTables

/-! A script speaks of a table after it has created it, and of a column after it has introduced it. -/
namespace SchemaSynth
open Identifier

/-- The names in the expression of a check: its longest runs of word characters. -/
def Check.mentioned (c : Check) : List String :=
  ((c.expression.toList.splitOnP (!isWord ·)).filter (· ≠ [])).map String.ofList

def Table.mentioned (t : Table) : List String :=
  t.compositeKey.getD [] ++ t.uniqueKeys.flatten ++ t.foreignKeys.map (·.column) ++
    t.checks.flatMap (·.mentioned)

private theorem Check.mentioned_comparison {left right : String} (name : String) (hleft : Plain left)
    (hright : Plain right) : Check.mentioned ⟨name, left ++ " <> " ++ right⟩ = [left, right] := by
  have hword {word : String} (h : Plain word) : ∀ c ∈ word.toList, (!isWord c) = false :=
    fun c hc => by rw [isWord_of_isPlain (h.chars c hc)]; rfl
  have hexpression : (left ++ " <> " ++ right).toList =
      left.toList ++ ' ' :: ([] ++ '<' :: ([] ++ '>' :: ([] ++ ' ' :: right.toList))) := by
    simp
  have hnil : ∀ c ∈ ([] : List Char), (!isWord c) = false := List.forall_mem_nil _
  rw [mentioned, hexpression, List.splitOnP_append_cons_of_forall_mem (hword hleft) _ (by decide),
    List.splitOnP_append_cons_of_forall_mem hnil _ (by decide),
    List.splitOnP_append_cons_of_forall_mem hnil _ (by decide),
    List.splitOnP_append_cons_of_forall_mem hnil _ (by decide),
    List.splitOnP_eq_singleton (hword hright)]
  simp [hleft.nonempty, hright.nonempty]

def Table.SelfContained (t : Table) : Prop :=
  ∀ column ∈ t.mentioned, ∃ c ∈ t.columns, c.name = column

namespace Statement
variable {xs ys before : List Statement} {s : Statement} {table column : String} {c : Column} {t : Table}

/-- The columns that a statement is about, with their tables. -/
def mentioned : Statement → List (String × String)
  | .createTable t => t.mentioned.map (t.name, ·)
  | .addForeignKey k => [(k.table, k.column)]
  | .replacePrimaryKey table columns => columns.map (table, ·)
  | .createIndex i => [(i.table, i.column)]
  | _ => []

def Introduces (statements : List Statement) (table column : String) : Prop :=
  ∃ s ∈ statements, ∃ c : Column, (table, c) ∈ s.columns ∧ c.name = column

/-- Behind the statements before it a statement finds the table that it alters, and all columns that
it is about. It may bring the columns itself. -/
structure Workable (before : List Statement) (s : Statement) : Prop where
  created : ∀ table, s.altered? = some table → Creates before table
  introduced : ∀ table column, (table, column) ∈ s.mentioned → Introduces (before ++ [s]) table column

private theorem Introduces.mono (h : Introduces xs table column) (hsub : xs ⊆ ys) :
    Introduces ys table column :=
  h.imp fun _ h => h.imp_left (hsub ·)

private theorem introduces_reference (nullable : Bool)
    (h : .addColumn table (.reference column nullable) ∈ xs) : Introduces xs table column :=
  ⟨_, h, _, List.mem_singleton_self _, rfl⟩

private theorem introduces_createTable (h : .createTable t ∈ xs) (hc : c ∈ t.columns) :
    Introduces xs t.name c.name :=
  ⟨_, h, c, List.mem_map_of_mem hc, rfl⟩

private theorem introduces_of_selfContained (h : t.SelfContained)
    (hmem : (table, column) ∈ (createTable t).mentioned) :
    Introduces (before ++ [.createTable t]) table column := by
  obtain ⟨_, hcolumn, heq⟩ := List.mem_map.mp hmem
  cases heq
  obtain ⟨c, hc, rfl⟩ := h column hcolumn
  exact introduces_createTable (by simp) hc

end Statement

open Statement

private theorem ClassNode.selfContained_table (c : ClassNode) (name : String) : (c.table name).SelfContained :=
  fun _ hcolumn => nomatch hcolumn

def PartKeys.Introduced (keys : PartKeys) (tables : String → Prop) (known : List Statement) : Prop :=
  ∀ part, tables part → ∀ column ∈ keys.keyOf part, Introduces known part column

private theorem PartKeys.Introduced.after {keys : PartKeys} {tables : String → Prop} {known : List Statement}
    (h : keys.Introduced tables known) (e : RelationshipEdge) (i : Nat) (s : Strategy) :
    (s.keysAfter keys).Introduced tables (known ++ (s.apply keys e i).statements) := by
  have hkept : keys.Introduced tables (known ++ (s.apply keys e i).statements) :=
    fun part hpart column hcolumn => (h part hpart column hcolumn).mono (List.subset_append_left _ _)
  cases s with
  | composition whole part =>
    intro other hother column hcolumn
    rw [keyOf_keysAfter_composition] at hcolumn
    split at hcolumn
    · rename_i hpart
      subst hpart
      rcases mem_extended.mp hcolumn with hcolumn | rfl
      · exact hkept other hother column hcolumn
      · have hadded : .addColumn other (.reference (Strategy.referenceColumn whole) false) ∈
            (Strategy.apply keys e i (.composition whole other)).statements := by
          simp [Strategy.apply, Strategy.statements, Strategy.compositionStatements]
        exact introduces_reference false (List.mem_append_right _ hadded)
    · exact hkept other hother column hcolumn
  | _ => exact hkept

namespace Strategy
variable {e : RelationshipEdge} {s : Strategy} {keys : PartKeys} {source target : String}

private theorem selfContained_recursiveTable (hsource : Plain source) :
    (recursiveTable source).SelfContained := by
  have hfirst : Plain (suffixed source "_id1") := hsource.suffixed (by decide)
  have hsecond : Plain (suffixed source "_id2") := hsource.suffixed (by decide)
  intro column hmem
  have hcolumn : column = suffixed source "_id1" ∨ column = suffixed source "_id2" := by
    simpa [recursiveTable, Table.mentioned, Check.mentioned_comparison _ hfirst hsecond,
      ForeignKey.between, ForeignKey.named, or_assoc, or_left_comm] using hmem
  exact ⟨.reference column false, by rcases hcolumn with rfl | rfl <;> simp [recursiveTable], rfl⟩

private theorem selfContained_joinTable (source target : String) :
    (joinTable source target).SelfContained := by
  intro column hmem
  have hcolumn : column = referenceColumn source ∨ column = referenceColumn target := by
    simpa [joinTable, Table.mentioned, ForeignKey.between, or_assoc, or_left_comm] using hmem
  exact ⟨.reference column false, by rcases hcolumn with rfl | rfl <;> simp [joinTable], rfl⟩

/-- What a statement of a strategy is about is introduced by the strategy up to there, or is in the
key that the altered table has already. -/
theorem follows_mentioned (e : RelationshipEdge) (keys : PartKeys)
    (htables : ∀ table ∈ s.tables, Plain table) :
    Follows (fun before st => ∀ table column, (table, column) ∈ st.mentioned →
        Introduces (before ++ [st]) table column ∨
          st.altered? = some table ∧ column ∈ keys.keyOf table)
      (s.statements e (s.partKey keys)) := by
  cases s with
  | recursive _ source _ =>
    have htable := selfContained_recursiveTable (htables source List.mem_cons_self)
    simp only [statements, follows_cons]
    exact ⟨fun _ _ hmem => absurd hmem List.not_mem_nil,
      fun _ _ hmem => Or.inl (introduces_of_selfContained htable hmem), follows_nil _⟩
  | manyToMany source target =>
    have htable := selfContained_joinTable source target
    simp only [statements, follows_cons]
    exact ⟨fun _ _ hmem => absurd hmem List.not_mem_nil,
      fun _ _ hmem => Or.inl (introduces_of_selfContained htable hmem), follows_nil _⟩
  | composition whole part =>
    simp only [statements, compositionStatements, follows_cons]
    refine ⟨fun _ _ hmem => absurd hmem List.not_mem_nil, fun _ _ hmem => absurd hmem List.not_mem_nil,
      ?replaced, ?referring, follows_nil _⟩
    case replaced =>
      intro table column hmem
      obtain ⟨_, hcolumn, heq⟩ := List.mem_map.mp hmem
      cases heq
      rcases PartKeys.mem_extended.mp hcolumn with hcolumn | rfl
      · exact Or.inr ⟨rfl, hcolumn⟩
      · exact Or.inl (introduces_reference false (by simp))
    case referring =>
      intro table column hmem
      obtain ⟨rfl, rfl⟩ := Prod.mk.inj (List.mem_singleton.mp hmem)
      exact Or.inl (introduces_reference false (by simp [ForeignKey.between]))
  | generalization =>
    simp [statements, generalizationStatements, follows_cons, follows_nil, mentioned, Introduces, columns,
      ForeignKey.between, Index.named, Column.reference, Column.plain, Column.withDefault]
  | selfReference =>
    simp [statements, selfReferenceStatements, follows_cons, follows_nil, mentioned, Introduces, columns,
      ForeignKey.between, ForeignKey.named, Column.reference]
  | _ =>
    simp [statements, skipped, referenceOn, follows_cons, follows_nil, mentioned, Introduces, columns,
      ForeignKey.between, Column.reference]

end Strategy

namespace Diagram
open Strategy
variable {d : Diagram} {policy : CollisionPolicy} {keys : PartKeys} {known : List Statement}
  {es : List (RelationshipEdge × Nat)}

private theorem introduced_nil (d : Diagram) (policy : CollisionPolicy) :
    PartKeys.Introduced [] (d.HasClassTable policy)
      (d.tableBlocks (.resolve policy d) d.classify).flatten := by
  intro part hpart column hcolumn
  obtain rfl := List.mem_singleton.mp hcolumn
  obtain ⟨st, hst, hcreated⟩ := creates_tableBlocks.mpr hpart
  obtain ⟨c, _, _, name, _, rfl | rfl⟩ := mem_tableBlocks.mp hst
  · cases hcreated
  · cases hcreated
    exact introduces_createTable hst (c := .surrogateKey) List.mem_cons_self

private theorem follows_carryOut (hes : es ⊆ d.leading)
    (hkeys : keys.Introduced (d.HasClassTable policy) known) :
    Follows (fun before st => ∀ table column, (table, column) ∈ st.mentioned →
        Introduces (known ++ before ++ [st]) table column)
      ((carryOut (.resolve policy d) d.classify keys es).flatMap (·.statements)) := by
  induction es generalizing keys known with
  | nil => exact follows_nil _
  | cons x es ih =>
    obtain ⟨hx, hes⟩ := List.cons_subset.mp hes
    have hsuits := choose_suits policy (mem_leading.mp hx).1
    rw [carryOut, List.flatMap_cons, follows_append]
    constructor
    · intro before st after hsplit table column hmem
      have hst : st ∈ ((choose (.resolve policy d) d.classify x.1 x.2).apply keys x.1 x.2).statements :=
        hsplit ▸ List.mem_append_right before List.mem_cons_self
      rcases follows_mentioned x.1 keys hsuits.plain_tables before st after hsplit table column hmem with
        h | ⟨haltered, hcolumn⟩
      · exact h.mono (by simp)
      · have hclass := hsuits.altered hst haltered
        exact (hkeys table hclass column hcolumn).mono (by simp)
    · refine (ih hes (hkeys.after x.1 x.2 _)).imp fun before st h table column hmem => ?_
      simpa only [List.append_assoc] using h table column hmem

/-- Each statement finds what it needs in front of it: the table that it alters, and the columns that
its keys, constraints and indexes are over. -/
theorem statements_workable (d : Diagram) (policy : CollisionPolicy) :
    Follows Workable (d.statements policy) := by
  have hblocks : Follows (fun before st => ∀ table column, (table, column) ∈ st.mentioned →
      Introduces (before ++ [st]) table column)
      (d.tableBlocks (.resolve policy d) d.classify).flatten := by
    refine follows_of_forall fun before st hst table column hmem => ?_
    obtain ⟨c, _, _, name, _, rfl | rfl⟩ := mem_tableBlocks.mp hst
    · cases hmem
    · exact introduces_of_selfContained (c.selfContained_table name) hmem
  have hrun := follows_carryOut (List.Subset.refl d.leading) (d.introduced_nil policy)
  rw [← applications_eq_carryOut] at hrun
  intro before st after hsplit
  exact ⟨d.alters_created policy before st after hsplit,
    follows_append.mpr ⟨hblocks, hrun⟩ before st after hsplit⟩

end Diagram
end SchemaSynth
