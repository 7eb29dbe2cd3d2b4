import SchemaSynth.Proofs.AssignedNames
import SchemaSynth.Proofs.CompositeKeys

/-! No text of a diagram gets into a statement but as a plain name, or behind a comment mark. -/
namespace SchemaSynth
open Identifier

/-- The name is plain, and so is what the default has between its quotes. -/
structure Column.Safe (c : Column) : Prop where
  name : Plain c.name
  quoted : ∀ literal, c.default? = some literal → ∃ word, Plain word ∧ literal = "'" ++ word ++ "'"

structure ForeignKey.Safe (k : ForeignKey) : Prop where
  name : Plain k.name
  table : Plain k.table
  column : Plain k.column
  referencedTable : Plain k.referencedTable

structure Check.Safe (c : Check) : Prop where
  name : Plain c.name
  compares : ∃ left right, Plain left ∧ Plain right ∧ c.expression = left ++ " <> " ++ right

structure Index.Safe (i : Index) : Prop where
  name : Plain i.name
  table : Plain i.table
  column : Plain i.column

structure Table.Safe (t : Table) : Prop where
  name : Plain t.name
  columns : ∀ c ∈ t.columns, c.Safe
  compositeKey : ∀ key, t.compositeKey = some key → ∀ column ∈ key, Plain column
  uniqueKeys : ∀ key ∈ t.uniqueKeys, ∀ column ∈ key, Plain column
  foreignKeys : ∀ k ∈ t.foreignKeys, k.Safe
  checks : ∀ c ∈ t.checks, c.Safe

/-- Line feeds alone end lines, and every line that is not empty is a comment. -/
structure Commented (text : String) : Prop where
  marked : ∀ line ∈ text.toList.splitOn '\n', line ≠ [] → "-- ".toList <+: line
  no_return : '\r' ∉ text.toList

/-- All names in the statement are plain, and a comment stays one. -/
def Statement.Safe : Statement → Prop
  | .comment text => Commented (Statement.comment text).render
  | .createTable t => t.Safe
  | .addColumn table c => Plain table ∧ c.Safe
  | .addForeignKey k => k.Safe
  | .replacePrimaryKey table columns =>
    Plain table ∧ Plain (Statement.primaryKeyName table) ∧ ∀ column ∈ columns, Plain column
  | .createIndex i => i.Safe

namespace Statement
variable {cs line : List Char} {ls : List (List Char)}

/-- No line of a comment breaks. -/
theorem not_mem_of_mem_lines (h : line ∈ lines cs) : '\n' ∉ line ∧ '\r' ∉ line := by
  induction cs generalizing line with
  | nil =>
    obtain rfl := List.mem_singleton.mp h
    exact ⟨List.not_mem_nil, List.not_mem_nil⟩
  | cons c cs ih =>
    rw [lines] at h
    split at h
    · rcases List.mem_cons.mp h with rfl | h
      · exact ⟨List.not_mem_nil, List.not_mem_nil⟩
      · exact ih h
    · rename_i hc
      rw [not_or] at hc
      have hcons {l : List Char} (hl : '\n' ∉ l ∧ '\r' ∉ l) : '\n' ∉ c :: l ∧ '\r' ∉ c :: l :=
        ⟨List.not_mem_cons_of_ne_of_not_mem (Ne.symm hc.1) hl.1,
          List.not_mem_cons_of_ne_of_not_mem (Ne.symm hc.2) hl.2⟩
      cases hlines : lines cs with
      | nil =>
        rw [hlines] at h
        obtain rfl := List.mem_singleton.mp h
        exact hcons ⟨List.not_mem_nil, List.not_mem_nil⟩
      | cons l ls =>
        rw [hlines] at h ih
        rcases List.mem_cons.mp h with rfl | h
        · exact hcons (ih List.mem_cons_self)
        · exact ih (List.mem_cons_of_mem _ h)

/-- Ended lines are split where they end. -/
theorem splitOn_flatMap (h : ∀ l ∈ ls, '\n' ∉ l) :
    (ls.flatMap (· ++ ['\n'])).splitOn '\n' = ls ++ [[]] := by
  induction ls with
  | nil => rfl
  | cons l ls ih =>
    obtain ⟨hl, hls⟩ := List.forall_mem_cons.mp h
    rw [List.flatMap_cons, List.append_assoc, List.singleton_append, List.splitOn_append_cons_self,
      List.splitOn_eq_singleton hl, ih hls, List.singleton_append, List.cons_append]

private theorem commented_renderComment (text : String) : Commented (renderComment text) := by
  let marked := ((lines text.toList).filter (· ≠ [])).map ("-- ".toList ++ ·)
  have hmarked : ∀ l ∈ marked, "-- ".toList <+: l ∧ '\n' ∉ l ∧ '\r' ∉ l := by
    intro l hl
    obtain ⟨line, hline, rfl⟩ := List.mem_map.mp hl
    obtain ⟨hn, hr⟩ := not_mem_of_mem_lines (List.mem_of_mem_filter hline)
    exact ⟨List.prefix_append _ _, by simp [hn], by simp [hr]⟩
  have hlist : (renderComment text).toList = marked.flatMap (· ++ ['\n']) := by
    rw [renderComment, String.toList_join]
    simp [marked, List.flatMap_map, commentLine]
  constructor
  · rw [hlist, splitOn_flatMap fun l hl => (hmarked l hl).2.1]
    intro line hline hne
    rcases List.mem_append.mp hline with hline | hline
    · exact (hmarked line hline).1
    · exact absurd (List.mem_singleton.mp hline) hne
  · rw [hlist, List.mem_flatMap]
    rintro ⟨l, hl, hr⟩
    rcases List.mem_append.mp hr with hr | hr
    · exact (hmarked l hl).2.2 hr
    · exact absurd hr (by decide)

private theorem safe_comment (text : String) : (Statement.comment text).Safe :=
  commented_renderComment text

end Statement

section Schema
variable {name table referenced column : String} {c : Column} {k : ForeignKey}

private theorem Column.safe_plain (h : Plain name) (type : ColumnType) : (Column.plain name type).Safe :=
  ⟨h, fun _ hliteral => by cases hliteral⟩

private theorem Column.safe_reference (h : Plain name) (nullable : Bool) :
    (Column.reference name nullable).Safe :=
  ⟨h, fun _ hliteral => by cases hliteral⟩

private theorem Column.safe_surrogateKey : Column.surrogateKey.Safe :=
  ⟨by decide, fun _ hliteral => by cases hliteral⟩

private theorem Column.Safe.withDefault (h : c.Safe) {word : String} (hword : Plain word) :
    (c.withDefault ("'" ++ word ++ "'")).Safe :=
  ⟨h.name, fun _ hliteral => ⟨word, hword, (Option.some.inj hliteral).symm⟩⟩

private theorem ForeignKey.safe_between (htable : Plain table) (hcolumn : Plain column)
    (hreferenced : Plain referenced) (onDelete : OnDelete) :
    (ForeignKey.between table column referenced onDelete).Safe where
  name := plain_joined (by decide)
    (List.forall_mem_cons.mpr ⟨htable, List.forall_mem_singleton.mpr hreferenced⟩)
  table := htable
  column := hcolumn
  referencedTable := hreferenced

private theorem ForeignKey.Safe.named (h : k.Safe) (hname : Plain name) : (k.named name).Safe :=
  ⟨hname.truncate, h.table, h.column, h.referencedTable⟩

private theorem Index.safe_named (hname : Plain name) (htable : Plain table) (hcolumn : Plain column) :
    (Index.named name table column).Safe :=
  ⟨hname.truncate, htable, hcolumn⟩

private theorem Attribute.plain_parse (raw : String) : Plain (parse raw).1 := by
  unfold parse
  dsimp only
  split <;> exact plain_sanitize _

private theorem ClassNode.safe_attributeColumn (raw : String) : (attributeColumn raw).Safe := by
  have hname : Plain
      (if (Attribute.parse raw).1 = "id" then "attr_id" else (Attribute.parse raw).1) := by
    split
    · decide
    · exact Attribute.plain_parse raw
  exact Column.safe_plain hname _

private theorem ClassNode.safe_table (c : ClassNode) (hname : Plain name) : (c.table name).Safe where
  name := hname
  columns := by
    refine List.forall_mem_cons.mpr ⟨Column.safe_surrogateKey, ?_⟩
    split
    · exact List.forall_mem_singleton.mpr (Column.safe_plain (by decide) _)
    · exact List.forall_mem_map.mpr fun raw _ => safe_attributeColumn raw
  compositeKey := by rintro _ ⟨⟩
  uniqueKeys := List.forall_mem_nil _
  foreignKeys := List.forall_mem_nil _
  checks := List.forall_mem_nil _

end Schema

namespace Strategy
open Statement
variable {d : Diagram} {policy : CollisionPolicy} {e f : RelationshipEdge} {i : Nat} {s : Strategy}
  {source target table referenced whole part parent child : String} {key : List String}

private theorem plain_referenceColumn (h : Plain table) : Plain (referenceColumn table) :=
  h.suffixed (by decide)

private theorem safe_referenceOn (htable : Plain table) (hreferenced : Plain referenced)
    (onDelete : OnDelete) : ∀ st ∈ referenceOn table referenced onDelete, st.Safe := by
  have hcolumn := plain_referenceColumn hreferenced
  simp only [referenceOn, List.forall_mem_cons]
  exact ⟨⟨htable, Column.safe_reference hcolumn _⟩,
    ForeignKey.safe_between htable hcolumn hreferenced _, List.forall_mem_nil _⟩

private theorem safe_selfReference (htable : Plain table) :
    ∀ st ∈ selfReferenceStatements table, st.Safe := by
  have hcolumn : Plain "parent_id" := by decide
  have hkey : Plain ("fk_" ++ table ++ "_parent") :=
    (Plain.append (by decide) htable).append (by decide)
  simp only [selfReferenceStatements, List.forall_mem_cons]
  exact ⟨safe_comment _, ⟨htable, Column.safe_reference hcolumn _⟩,
    (ForeignKey.safe_between htable hcolumn htable _).named hkey, List.forall_mem_nil _⟩

private theorem safe_recursiveTable (hsource : Plain source) : (recursiveTable source).Safe := by
  have hjoin : Plain (joined [source, "recursiva_rel"]) :=
    plain_joined hsource (List.forall_mem_singleton.mpr (by decide))
  have hcheck : Plain (joined ["chk", joined [source, "recursiva_rel"], "distinct"]) :=
    plain_joined (by decide)
      (List.forall_mem_cons.mpr ⟨hjoin, List.forall_mem_singleton.mpr (by decide)⟩)
  have hfirst : Plain (suffixed source "_id1") := hsource.suffixed (by decide)
  have hsecond : Plain (suffixed source "_id2") := hsource.suffixed (by decide)
  have hkey {number : String} (hnumber : Plain number) :
      Plain ("fk_" ++ joined [source, "recursiva_rel"] ++ "_" ++ source ++ "_" ++ number) :=
    (((((Plain.append (by decide) hjoin).append (by decide)).append hsource).append
      (by decide)).append hnumber)
  constructor
  case name => exact hjoin
  case columns =>
    simp only [recursiveTable, List.forall_mem_cons]
    exact ⟨Column.safe_reference hfirst _, Column.safe_reference hsecond _, List.forall_mem_nil _⟩
  case compositeKey =>
    rintro _ ⟨⟩
    simp only [List.forall_mem_cons]
    exact ⟨hfirst, hsecond, List.forall_mem_nil _⟩
  case uniqueKeys => exact List.forall_mem_nil _
  case foreignKeys =>
    simp only [recursiveTable, List.forall_mem_cons]
    exact ⟨(ForeignKey.safe_between hjoin hfirst hsource _).named (hkey (by decide)),
      (ForeignKey.safe_between hjoin hsecond hsource _).named (hkey (by decide)),
      List.forall_mem_nil _⟩
  case checks =>
    simp only [recursiveTable, List.forall_mem_cons]
    exact ⟨⟨hcheck, _, _, hfirst, hsecond, rfl⟩, List.forall_mem_nil _⟩

private theorem safe_joinTable (hsource : Plain source) (htarget : Plain target) :
    (joinTable source target).Safe := by
  have hjoin : Plain (joined [source, target, "rel"]) :=
    plain_joined hsource
      (List.forall_mem_cons.mpr ⟨htarget, List.forall_mem_singleton.mpr (by decide)⟩)
  have hsourceColumn := plain_referenceColumn hsource
  have htargetColumn := plain_referenceColumn htarget
  constructor
  case name => exact hjoin
  case columns =>
    simp only [joinTable, List.forall_mem_cons]
    exact ⟨Column.safe_surrogateKey, Column.safe_reference hsourceColumn _,
      Column.safe_reference htargetColumn _, List.forall_mem_nil _⟩
  case compositeKey =>
    rintro _ ⟨⟩
  case uniqueKeys =>
    simp only [joinTable, List.forall_mem_cons]
    exact ⟨⟨hsourceColumn, htargetColumn, List.forall_mem_nil _⟩, List.forall_mem_nil _⟩
  case foreignKeys =>
    simp only [joinTable, List.forall_mem_cons]
    exact ⟨ForeignKey.safe_between hjoin hsourceColumn hsource _,
      ForeignKey.safe_between hjoin htargetColumn htarget _, List.forall_mem_nil _⟩
  case checks => exact List.forall_mem_nil _

private theorem safe_composition (hwhole : Plain whole) (hpart : Plain part)
    (hkey : ∀ column ∈ key, Plain column) :
    ∀ st ∈ compositionStatements whole part key, st.Safe := by
  have hcolumn := plain_referenceColumn hwhole
  have hconstraint : Plain (primaryKeyName part) := hpart.append (by decide)
  simp only [compositionStatements, List.forall_mem_cons]
  exact ⟨safe_comment _, ⟨hpart, Column.safe_reference hcolumn _⟩, ⟨hpart, hconstraint, hkey⟩,
    ForeignKey.safe_between hpart hcolumn hwhole _, List.forall_mem_nil _⟩

private theorem safe_generalization (hparent : Plain parent) (hchild : Plain child) :
    ∀ st ∈ generalizationStatements parent child, st.Safe := by
  have hcolumn := plain_referenceColumn hparent
  have hdiscriminator : Plain (truncate ("tipo_" ++ child)) :=
    (Plain.append (by decide) hchild).truncate
  have hindex {rest : String} (hrest : Plain rest) : Plain ("idx_" ++ child ++ "_" ++ rest) :=
    ((Plain.append (by decide) hchild).append (by decide)).append hrest
  have htype : Plain ("idx_" ++ child ++ "_tipo") :=
    (Plain.append (by decide) hchild).append (by decide)
  simp only [generalizationStatements, List.forall_mem_cons]
  exact ⟨safe_comment _, ⟨hchild, Column.safe_reference hcolumn _⟩,
    ForeignKey.safe_between hchild hcolumn hparent _,
    ⟨hchild, (Column.safe_plain hdiscriminator _).withDefault hchild⟩,
    Index.safe_named (hindex hcolumn) hchild hcolumn, Index.safe_named htype hchild hdiscriminator,
    List.forall_mem_nil _⟩

def tables : Strategy → List String
  | .skipUnknown => []
  | .skipJoinClass .. => []
  | .selfReference table => [table]
  | .recursive _ source _ => [source]
  | .composition whole part => [whole, part]
  | .generalization parent child => [parent, child]
  | .aggregation whole part => [whole, part]
  | .manyToMany source target => [source, target]
  | .oneToMany one many => [one, many]
  | .fallback source target => [source, target]

private theorem plain_pair (h : ∀ table ∈ [source, target], Plain table) :
    Plain source ∧ Plain target :=
  (List.forall_mem_cons.mp h).imp_right List.forall_mem_singleton.mp

private theorem safe_statements (htables : ∀ table ∈ s.tables, Plain table)
    (hkey : ∀ column ∈ key, Plain column) : ∀ st ∈ s.statements e key, st.Safe := by
  cases s with
  | skipUnknown => exact List.forall_mem_singleton.mpr (safe_comment _)
  | skipJoinClass => exact List.forall_mem_singleton.mpr (safe_comment _)
  | selfReference table => exact safe_selfReference (htables table List.mem_cons_self)
  | recursive _ source _ =>
    have htable := safe_recursiveTable (htables source List.mem_cons_self)
    exact List.forall_mem_cons.mpr ⟨safe_comment _, List.forall_mem_singleton.mpr htable⟩
  | composition whole part =>
    obtain ⟨hwhole, hpart⟩ := plain_pair htables
    exact safe_composition hwhole hpart hkey
  | generalization parent child =>
    obtain ⟨hparent, hchild⟩ := plain_pair htables
    exact safe_generalization hparent hchild
  | aggregation whole part =>
    obtain ⟨hwhole, hpart⟩ := plain_pair htables
    exact List.forall_mem_cons.mpr ⟨safe_comment _, safe_referenceOn hpart hwhole _⟩
  | manyToMany source target =>
    obtain ⟨hsource, htarget⟩ := plain_pair htables
    have htable := safe_joinTable hsource htarget
    exact List.forall_mem_cons.mpr ⟨safe_comment _, List.forall_mem_singleton.mpr htable⟩
  | oneToMany one many =>
    obtain ⟨hone, hmany⟩ := plain_pair htables
    exact List.forall_mem_cons.mpr ⟨safe_comment _, safe_referenceOn hmany hone _⟩
  | fallback source target =>
    obtain ⟨hsource, htarget⟩ := plain_pair htables
    exact List.forall_mem_cons.mpr ⟨safe_comment _, safe_referenceOn htarget hsource _⟩

private theorem SuitsKind.mem_tables (h : SuitsKind e source target s) :
    ∀ table ∈ s.tables, table = source ∨ table = target := by
  cases h <;> simp [tables]

/-- The statements for an edge concern tables of resolved names. An id that has no name, or stands
for a join class, is named in comments only. -/
theorem Suits.exists_id (h : Suits d (.resolve policy d) i e s) :
    ∀ table ∈ s.tables, ∃ id, (TableNames.resolve policy d).get? id = some table := by
  cases h with
  | skipUnknown => exact List.forall_mem_nil _
  | skipJoinClass => exact List.forall_mem_nil _
  | selfReference attached => exact List.forall_mem_singleton.mpr ⟨_, attached.source_name⟩
  | recursive attached => exact List.forall_mem_singleton.mpr ⟨_, attached.source_name⟩
  | ofKind attached _ _ kind =>
    intro table htable
    rcases kind.mem_tables table htable with rfl | rfl
    · exact ⟨_, attached.source_name⟩
    · exact ⟨_, attached.target_name⟩

/-- The tables of a strategy have plain names. -/
theorem Suits.plain_tables (h : Suits d (.resolve policy d) i e s) :
    ∀ table ∈ s.tables, Plain table := by
  intro table htable
  obtain ⟨_, hid⟩ := h.exists_id table htable
  exact TableNames.plain_of_get?_resolve hid

end Strategy

def PartKeys.Safe (keys : PartKeys) : Prop :=
  ∀ part, ∀ column ∈ keys.keyOf part, Plain column

namespace PartKeys
variable {keys : PartKeys} {whole part : String}

private theorem safe_nil : Safe [] := by
  intro part column hcolumn
  obtain rfl := List.mem_singleton.mp hcolumn
  decide

private theorem Safe.after (h : keys.Safe) {s : Strategy} (htables : ∀ table ∈ s.tables, Plain table) :
    (s.keysAfter keys).Safe := by
  refine forall_keyOf_keysAfter ?_ h
  rintro whole part rfl
  exact Strategy.plain_referenceColumn (htables whole List.mem_cons_self)

private theorem Safe.partKey (h : keys.Safe) {s : Strategy} (htables : ∀ table ∈ s.tables, Plain table) :
    ∀ column ∈ s.partKey keys, Plain column := by
  cases s with
  | composition whole part =>
    intro column hcolumn
    rcases mem_extended.mp hcolumn with hcolumn | rfl
    · exact h part column hcolumn
    · exact Strategy.plain_referenceColumn (htables whole List.mem_cons_self)
  | _ => exact List.forall_mem_nil _

end PartKeys

namespace Diagram
open Strategy
variable {d : Diagram} {policy : CollisionPolicy}

/-- The statements for class tables are safe. -/
theorem safe_of_mem_tableBlocks {st : Statement}
    (h : st ∈ (d.tableBlocks (.resolve policy d) d.classify).flatten) : st.Safe := by
  obtain ⟨c, _, _, name, hname, rfl | rfl⟩ := mem_tableBlocks.mp h
  · exact Statement.safe_comment _
  · exact c.safe_table (TableNames.plain_of_get?_resolve hname)

/-- The statements of applications are safe. -/
theorem safe_of_mem_applications {a : RuleApplication} {st : Statement}
    (ha : a ∈ d.applications (.resolve policy d) d.classify) (hst : st ∈ a.statements) : st.Safe := by
  rw [applications_eq_carryOut] at ha
  have hplain {e : RelationshipEdge} {i : Nat} (h : (e, i) ∈ d.leading) :
      ∀ table ∈ (choose (.resolve policy d) d.classify e i).tables, Plain table :=
    (choose_suits policy (mem_leading.mp h).1).plain_tables
  obtain ⟨e, i, keys, hleading, hkeys, rfl⟩ := exists_of_mem_carryOut (P := PartKeys.Safe)
    (fun _ _ hx hkeys => hkeys.after (hplain hx)) PartKeys.safe_nil ha
  exact safe_statements (hplain hleading) (hkeys.partKey (hplain hleading)) st hst

/-- Whatever the ids, names, attributes, methods, labels and multiplicities of a diagram are, its
statements have plain names only, and its comments stay comments. -/
theorem statements_safe (d : Diagram) (policy : CollisionPolicy) :
    ∀ s ∈ d.statements policy, s.Safe := by
  intro st hst
  rcases mem_statements.mp hst with hst | ⟨a, ha, hst⟩
  · exact safe_of_mem_tableBlocks hst
  · exact safe_of_mem_applications ha hst

/-- A diagram whose ids and names try to end the line, or the literal, that they stand in. -/
def hostileNames : Diagram where
  classes := [⟨"a\r\nDROP TABLE a;", "A'); DROP TABLE a; --", ["b\n\"; int"], []⟩]
  relationships :=
    [⟨.composition, "a\r\nDROP TABLE a;", "b\rDROP TABLE b;", .other "x\n", .many, ";"⟩]

/-- Names that try to end their line, or their literal, lead to safe statements. -/
theorem hostileNames_safe :
    (∃ t, .createTable t ∈ hostileNames.statements .warn ∧ t.name = "a_drop_table_a" ∧
      (Statement.createTable t).Safe) ∧
    ∃ text, .comment text ∈ hostileNames.statements .warn ∧ '\r' ∈ text.toList ∧
      (Statement.comment text).Safe := by
  have htable : .createTable (ClassNode.table
      ⟨"a\r\nDROP TABLE a;", "A'); DROP TABLE a; --", ["b\n\"; int"], []⟩ "a_drop_table_a") ∈
        hostileNames.statements .warn := by decide
  have hcomment : .comment ("Skipped Composition relationship from a\r\nDROP TABLE a; to " ++
      "b\rDROP TABLE b;: class not found") ∈ hostileNames.statements .warn := by decide
  exact ⟨⟨_, htable, rfl, statements_safe hostileNames .warn _ htable⟩,
    _, hcomment, by decide, statements_safe hostileNames .warn _ hcomment⟩

end Diagram
end SchemaSynth
