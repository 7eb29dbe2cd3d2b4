import SchemaSynth.Proofs.JoinClasses
import SchemaSynth.Proofs.ScriptLines
import SchemaSynth.Proofs.TableAccounts

/-! The lines of a script in which a table is made, and how many there are. -/
namespace SchemaSynth
open Script Statement

def StartsTable (line : List Char) : Prop := "CREATE TABLE".toList <+: line

instance : DecidablePred StartsTable := fun line =>
  inferInstanceAs (Decidable ("CREATE TABLE".toList <+: line))

def Script.tableLines (sql : String) : List (List Char) :=
  (sql.toList.splitOn '\n').filter StartsTable

def tableStarts (lines : List String) : Nat :=
  lines.countP fun line => StartsTable line.toList

private theorem tableStarts_append (xs ys : List String) :
    tableStarts (xs ++ ys) = tableStarts xs + tableStarts ys :=
  List.countP_append

private theorem tableStarts_eq_zero {lines : List String} (h : ∀ line ∈ lines, ¬ StartsTable line.toList) :
    tableStarts lines = 0 :=
  List.countP_eq_zero.mpr fun line hline => by simpa using h line hline

private theorem not_startsTable_of_prefix {start line : List Char} (h : start <+: line)
    (hstart : ¬ StartsTable start ∧ ¬ start <+: "CREATE TABLE".toList) : ¬ StartsTable line :=
  fun hstarts => (List.prefix_or_prefix_of_prefix hstarts h).elim hstart.1 hstart.2

private theorem not_startsTable {start : String} (rest : String)
    (h : ¬ StartsTable start.toList ∧ ¬ start.toList <+: "CREATE TABLE".toList) :
    ¬ StartsTable (start ++ rest).toList := by
  rw [String.toList_append]
  exact not_startsTable_of_prefix (List.prefix_append _ _) h

namespace Statement

private theorem not_startsTable_entryLines (entries : List String) :
    ∀ line ∈ entryLines entries, ¬ StartsTable line.toList := by
  induction entries with
  | nil => exact List.forall_mem_singleton.mpr (by decide)
  | cons entry entries ih =>
    have hentry (rest : String) : ¬ StartsTable ("  " ++ rest).toList :=
      not_startsTable rest (by decide)
    cases entries with
    | nil => exact List.forall_mem_singleton.mpr (hentry entry)
    | cons entry' entries =>
      refine List.forall_mem_cons.mpr ⟨?_, ih⟩
      rw [String.append_assoc]
      exact hentry _

private theorem not_startsTable_foreignKeyLines (k : ForeignKey) :
    ∀ line ∈ foreignKeyLines k, ¬ StartsTable line.toList := by
  simp only [foreignKeyLines, List.forall_mem_cons, String.append_assoc]
  exact ⟨by decide, by decide, by decide, not_startsTable _ (by decide), by decide,
    not_startsTable _ (by decide), by decide, List.forall_mem_nil _⟩

private theorem not_startsTable_primaryKeyLines (table : String) (columns : List String) :
    ∀ line ∈ primaryKeyLines table columns, ¬ StartsTable line.toList := by
  simp only [primaryKeyLines, List.forall_mem_cons, String.append_assoc]
  exact ⟨by decide, by decide, by decide, not_startsTable _ (by decide), not_startsTable _ (by decide),
    not_startsTable _ (by decide), not_startsTable _ (by decide), not_startsTable _ (by decide),
    by decide, List.forall_mem_nil _⟩

private theorem tableStarts_createTable (t : Table) : tableStarts (textLines (.createTable t)) = 1 := by
  have hfirst : StartsTable ("CREATE TABLE IF NOT EXISTS " ++ t.name ++ " (").toList := by
    rw [StartsTable, String.append_assoc, String.toList_append]
    exact List.prefix_append_of_prefix (by decide)
  have hclose : ∀ line ∈ [");"], ¬ StartsTable line.toList := by decide
  have hrest := tableStarts_eq_zero
    (List.forall_mem_append.mpr ⟨not_startsTable_entryLines (tableEntries t), hclose⟩)
  rw [tableStarts] at hrest
  rw [tableStarts, textLines, List.countP_cons_of_pos (by simpa using hfirst), hrest]

private theorem tableStarts_textLines (s : Statement) : tableStarts s.textLines = (tablesOf [s]).length := by
  have hblock {lines : List String} (h : ∀ line ∈ lines, ¬ StartsTable line.toList) :
      tableStarts (blockLines lines) = 0 :=
    tableStarts_eq_zero
      (List.forall_mem_cons.mpr ⟨by decide, List.forall_mem_append.mpr ⟨h, by decide⟩⟩)
  cases s with
  | comment t =>
    exact tableStarts_eq_zero (List.forall_mem_map.mpr fun l _ => not_startsTable _ (by decide))
  | createTable t => exact tableStarts_createTable t
  | addColumn table c =>
    refine tableStarts_eq_zero (List.forall_mem_singleton.mpr ?_)
    simp only [String.append_assoc]
    exact not_startsTable _ (by decide)
  | addForeignKey k => exact hblock (not_startsTable_foreignKeyLines k)
  | replacePrimaryKey table columns => exact hblock (not_startsTable_primaryKeyLines table columns)
  | createIndex i =>
    refine tableStarts_eq_zero (List.forall_mem_singleton.mpr ?_)
    simp only [String.append_assoc]
    exact not_startsTable _ (by decide)

private theorem tableStarts_statements (statements : List Statement) :
    tableStarts (statements.flatMap textLines) = (tablesOf statements).length := by
  induction statements with
  | nil => rfl
  | cons st statements ih =>
    rw [List.flatMap_cons, tableStarts_append, ih, tableStarts_textLines, ← List.length_append,
      ← tablesOf_append, List.singleton_append]

private theorem feed_textLines {s : Statement} (h : s.Safe) : ∀ line ∈ s.textLines, '\n' ∉ line.toList := by
  have hblock {lines : List String} (h : ∀ line ∈ lines, Tame line.toList) :
      ∀ line ∈ blockLines lines, '\n' ∉ line.toList :=
    List.forall_mem_cons.mpr ⟨by decide, List.forall_mem_append.mpr
      ⟨fun line hline => (h line hline).feed, by decide⟩⟩
  cases s with
  | comment t => exact fun line hline => (comments_textLines t line hline).1
  | createTable t => exact fun line hline => (loose_createTable h line hline).tame.feed
  | addColumn table c => exact fun line hline => (loose_addColumn h.1 h.2 line hline).tame.feed
  | addForeignKey k => exact hblock (tame_foreignKeyLines h)
  | replacePrimaryKey table columns =>
    obtain ⟨htable, hkey, hcolumns⟩ := h
    exact hblock (tame_primaryKeyLines htable hkey hcolumns)
  | createIndex i => exact fun line hline => (loose_createIndex h line hline).tame.feed

end Statement

namespace Script
variable {blocks : List (List Statement)}

def blocksLines (blocks : List (List Statement)) : List String :=
  blocks.flatMap fun statements => statements.flatMap textLines ++ [""]

def scriptLines (blocks : List (List Statement)) (s : Statistics) (stamp : Option Moment) :
    List String :=
  stamp.toList.flatMap (fun m => bannerLines s m ++ [""]) ++
    (blocksLines blocks ++ stamp.toList.flatMap fun _ => trailerLines s)

private theorem text_flatMap {α : Type} (f : α → List String) (xs : List α) :
    text (xs.flatMap f) = String.join (xs.map fun x => text (f x)) := by
  induction xs with
  | nil => rfl
  | cons x xs ih => rw [List.flatMap_cons, text_append, ih, List.map_cons, String.join_cons]

private theorem renderBlocks_eq_text (blocks : List (List Statement)) :
    String.join (blocks.map renderBlock) = text (blocksLines blocks) := by
  have hblock (statements : List Statement) :
      renderBlock statements = text (statements.flatMap textLines ++ [""]) := by
    rw [renderBlock, text_append, text_flatMap, funext render_eq_text]
    rfl
  rw [blocksLines, text_flatMap, funext hblock]

private theorem assemble_eq_text (tables : List (List Statement)) (applications : List RuleApplication)
    (s : Statistics) (stamp : Option Moment) :
    assemble tables applications s stamp =
      text (scriptLines (tables ++ applications.map (·.statements)) s stamp) := by
  have hbody : String.join (tables.map renderBlock) ++
      String.join (applications.map fun a => renderBlock a.statements) =
        text (blocksLines (tables ++ applications.map (·.statements))) := by
    rw [← renderBlocks_eq_text, List.map_append, String.join_append, List.map_map]
    rfl
  cases stamp with
  | none => simpa [assemble, scriptLines] using hbody
  | some m =>
    simp only [assemble, hbody, scriptLines, Option.toList_some, List.flatMap_singleton, text_append,
      banner_eq_text, trailer_eq_text, String.append_assoc]

private theorem feed_scriptLines (h : ∀ st ∈ blocks.flatten, st.Safe) (s : Statistics) (stamp : Option Moment) :
    ∀ line ∈ scriptLines blocks s stamp, '\n' ∉ line.toList := by
  have hempty : ∀ line ∈ [""], '\n' ∉ line.toList := List.forall_mem_singleton.mpr (by decide)
  have hblocks : ∀ line ∈ blocksLines blocks, '\n' ∉ line.toList := by
    intro line hline
    obtain ⟨statements, hstatements, hline⟩ := List.mem_flatMap.mp hline
    rcases List.mem_append.mp hline with hline | hline
    · obtain ⟨st, hst, hline⟩ := List.mem_flatMap.mp hline
      exact feed_textLines (h st (List.mem_flatten_of_mem hstatements hst)) line hline
    · exact hempty line hline
  cases stamp with
  | none => simpa [scriptLines] using hblocks
  | some m =>
    simp only [scriptLines, Option.toList_some, List.flatMap_singleton, List.forall_mem_append]
    exact ⟨⟨fun line hline => (comments_bannerLines s m line hline).1, hempty⟩, hblocks,
      fun line hline => (comments_trailerLines s line hline).1⟩

private theorem tableStarts_comments {lines : List String}
    (h : ∀ line ∈ lines, '\n' ∉ line.toList ∧ "--".toList <+: line.toList) : tableStarts lines = 0 :=
  tableStarts_eq_zero fun line hline => not_startsTable_of_prefix (h line hline).2 (by decide)

private theorem tableStarts_blocksLines (blocks : List (List Statement)) :
    tableStarts (blocksLines blocks) = (tablesOf blocks.flatten).length := by
  unfold blocksLines
  induction blocks with
  | nil => rfl
  | cons statements blocks ih =>
    have hempty : tableStarts [""] = 0 := by decide
    rw [List.flatMap_cons, tableStarts_append, tableStarts_append, ih, hempty, tableStarts_statements,
      List.flatten_cons, tablesOf_append, List.length_append, Nat.add_zero]

private theorem tableStarts_scriptLines (blocks : List (List Statement)) (s : Statistics)
    (stamp : Option Moment) :
    tableStarts (scriptLines blocks s stamp) = (tablesOf blocks.flatten).length := by
  cases stamp with
  | none => simpa [scriptLines] using tableStarts_blocksLines blocks
  | some m =>
    have hempty : tableStarts [""] = 0 := by decide
    simp only [scriptLines, Option.toList_some, List.flatMap_singleton, tableStarts_append,
      tableStarts_blocksLines, hempty, tableStarts_comments (comments_bannerLines s m),
      tableStarts_comments (comments_trailerLines s), Nat.zero_add, Nat.add_zero]

private theorem length_tableLines {tables : List (List Statement)} {applications : List RuleApplication}
    {s : Statistics} {stamp : Option Moment} (htables : ∀ st ∈ tables.flatten, st.Safe)
    (happlications : ∀ a ∈ applications, ∀ st ∈ a.statements, st.Safe) :
    (tableLines (assemble tables applications s stamp)).length =
      (tablesOf (tables.flatten ++ applications.flatMap (·.statements))).length := by
  have hsafe : ∀ st ∈ (tables ++ applications.map (·.statements)).flatten, st.Safe := by
    rw [List.flatten_append, ← List.flatMap_def, List.forall_mem_append]
    refine ⟨htables, fun st hst => ?_⟩
    obtain ⟨a, ha, hst⟩ := List.mem_flatMap.mp hst
    exact happlications a ha st hst
  have hempty : [([] : List Char)].filter StartsTable = [] := by decide
  rw [tableLines, assemble_eq_text, toList_text,
    splitOn_flatMap (List.forall_mem_map.mpr (feed_scriptLines hsafe s stamp)), List.filter_append,
    hempty, List.append_nil, ← List.countP_eq_length_filter, List.countP_map, List.flatMap_def,
    ← List.flatten_append]
  exact tableStarts_scriptLines _ _ _

end Script

namespace Diagram

/-- There is one table for every class id that is not that of a join class, in the order in which the
ids come up first, and one for every application of a many-to-many rule. The recursive rule is applied
once for every recursive pair. So a script makes the tables that are counted, but for three things:
classes of one id share a table, join classes have none, and the join tables of recursive pairs are
not counted. -/
theorem tables_accounted (d : Diagram) (options : Options) (stamp : Moment) :
    let generation := d.generate options stamp
    List.Forall₂ (d.IsTableOf options.collisionPolicy)
        (tablesOf (d.tableBlocks (.resolve options.collisionPolicy d) d.classify).flatten)
        (d.ids.eraseDups.filter fun id => ¬ d.IsJoin id) ∧
      (∀ a ∈ generation.appliedRules, (tablesOf a.statements).length =
        if a.rule = .manyToMany ∨ a.rule = .recursiveManyToMany then 1 else 0) ∧
      (generation.appliedRules.filter (·.rule = .recursiveManyToMany)).length =
        d.classify.pairs.length ∧
      ((tableLines generation.sql).length : Int) =
        generation.statistics.tableCount - (d.classes.length - d.ids.eraseDups.length)
          - (d.classify.pairs.map (·.target)).eraseDups.length + d.classify.pairs.length := by
  intro generation
  have hlines : (tableLines generation.sql).length =
      (tablesOf (d.statements options.collisionPolicy)).length :=
    length_tableLines (fun _ hst => safe_of_mem_tableBlocks hst)
      (fun _ ha _ hst => safe_of_mem_applications ha hst)
  refine ⟨isTableOf_tableBlocks d _, fun a ha => makesOwnTables_of_mem ha,
    length_recursive_applications d _, ?_⟩
  rw [hlines]
  exact length_tablesOf_statements d _

example : (tablesOf (sharedJoinClass.statements .warn)).length = 5 ∧
    (sharedJoinClass.statistics (sharedJoinClass.applications (.resolve .warn sharedJoinClass)
      sharedJoinClass.classify)).tableCount = 4 := by
  decide

end Diagram

end SchemaSynth
