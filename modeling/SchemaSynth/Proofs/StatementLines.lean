import SchemaSynth.Proofs.GuardedLines
import SchemaSynth.Proofs.SafeStatements

/-! The lines that statements are written in. Each keyword in a line has its guard behind it. -/
namespace SchemaSynth
open Identifier Script

namespace Statement

def entryLines : List String → List String
  | [] => [""]
  | [entry] => ["  " ++ entry]
  | entry :: entries => ("  " ++ entry ++ ",") :: entryLines entries

def blockLines (inside : List String) : List String :=
  "DO $$" :: (inside ++ ["END $$;"])

def foreignKeyLines (k : ForeignKey) : List String :=
  ["BEGIN", "  IF NOT EXISTS (",
    "    SELECT 1 FROM information_schema.table_constraints",
    "    WHERE constraint_name = '" ++ k.name ++ "' AND table_name = '" ++ k.table ++ "'",
    "  ) THEN",
    "    ALTER TABLE " ++ k.table ++ " ADD CONSTRAINT " ++ k.name ++ " " ++ foreignKeyClause k ++ ";",
    "  END IF;"]

def primaryKeyLines (table : String) (columns : List String) : List String :=
  ["BEGIN", "  IF (",
    "    SELECT count(*) FROM information_schema.key_column_usage",
    "    WHERE constraint_name = '" ++ primaryKeyName table ++ "' AND table_name = '" ++ table ++ "'",
    "      AND column_name IN (" ++ commas (columns.map fun c => "'" ++ c ++ "'") ++ ")",
    "  ) < " ++ toString columns.length ++ " THEN",
    "    ALTER TABLE " ++ table ++ " DROP CONSTRAINT IF EXISTS " ++ primaryKeyName table ++ ";",
    "    ALTER TABLE " ++ table ++ " ADD CONSTRAINT " ++ primaryKeyName table ++ " PRIMARY KEY ("
      ++ commas columns ++ ");",
    "  END IF;"]

def textLines : Statement → List String
  | .comment text => ((lines text.toList).filter (· ≠ [])).map fun l => "-- " ++ String.ofList l
  | .createTable t =>
    ("CREATE TABLE IF NOT EXISTS " ++ t.name ++ " (") :: (entryLines (tableEntries t) ++ [");"])
  | .addColumn table c =>
    ["ALTER TABLE " ++ table ++ " ADD COLUMN IF NOT EXISTS " ++ c.definition ++ ";"]
  | .addForeignKey k => blockLines (foreignKeyLines k)
  | .replacePrimaryKey table columns => blockLines (primaryKeyLines table columns)
  | .createIndex i =>
    ["CREATE INDEX IF NOT EXISTS " ++ i.name ++ " ON " ++ i.table ++ "(" ++ i.column ++ ");"]

def text (ls : List String) : String :=
  String.join (ls.map (· ++ "\n"))

theorem text_nil : text [] = "" := rfl

theorem text_cons (l : String) (ls : List String) : text (l :: ls) = l ++ "\n" ++ text ls := by
  simp [text, String.join_cons]

theorem text_append (ls ls' : List String) : text (ls ++ ls') = text ls ++ text ls' := by
  simp [text]

theorem toList_text (ls : List String) :
    (text ls).toList = (ls.map String.toList).flatMap (· ++ ['\n']) := by
  rw [text, String.toList_join, List.flatMap_map, List.flatMap_map]
  simp

private theorem intercalate_entries (entries : List String) :
    ",\n".intercalate (entries.map ("  " ++ ·)) ++ "\n" = text (entryLines entries) := by
  induction entries with
  | nil => rfl
  | cons entry entries ih =>
    cases entries with
    | nil =>
      simp only [List.map_cons, List.map_nil, String.intercalate_singleton, entryLines, text_cons,
        text_nil, String.append_empty]
    | cons entry' entries =>
      have hcomma : ",\n" = "," ++ "\n" := by decide
      rw [List.map_cons, String.intercalate_cons_of_ne_nil (by simp), entryLines, text_cons, ← ih]
      · simp only [hcomma, String.append_assoc]
      · nofun

private theorem renderTable_eq_text (t : Table) :
    renderTable t = text (textLines (.createTable t)) := by
  have hopen : " (\n" = " (" ++ "\n" := by decide
  have hclose : "\n);\n" = "\n" ++ (");" ++ "\n") := by decide
  unfold renderTable
  simp only [textLines, text_cons, text_append, text_nil, ← intercalate_entries, hopen, hclose,
    String.append_assoc, String.append_empty]

private theorem renderForeignKey_eq_text (k : ForeignKey) :
    renderForeignKey k = text (textLines (.addForeignKey k)) := by
  have hopen : "DO $$\nBEGIN\n  IF NOT EXISTS (\n" =
      "DO $$" ++ ("\n" ++ ("BEGIN" ++ ("\n" ++ ("  IF NOT EXISTS (" ++ "\n")))) := by decide
  have hsource : "    SELECT 1 FROM information_schema.table_constraints\n" =
      "    SELECT 1 FROM information_schema.table_constraints" ++ "\n" := by decide
  have hquote : "'\n" = "'" ++ "\n" := by decide
  have hthen : "  ) THEN\n" = "  ) THEN" ++ "\n" := by decide
  have hclose : ";\n  END IF;\nEND $$;\n" =
      ";" ++ ("\n" ++ ("  END IF;" ++ ("\n" ++ ("END $$;" ++ "\n")))) := by decide
  unfold renderForeignKey
  simp only [textLines, blockLines, foreignKeyLines, text_cons, text_append, text_nil, hopen, hsource,
    hquote, hthen, hclose, String.append_assoc, String.append_empty]

private theorem renderPrimaryKey_eq_text (table : String) (columns : List String) :
    renderPrimaryKey table columns = text (textLines (.replacePrimaryKey table columns)) := by
  have hopen : "DO $$\nBEGIN\n  IF (\n" =
      "DO $$" ++ ("\n" ++ ("BEGIN" ++ ("\n" ++ ("  IF (" ++ "\n")))) := by decide
  have hsource : "    SELECT count(*) FROM information_schema.key_column_usage\n" =
      "    SELECT count(*) FROM information_schema.key_column_usage" ++ "\n" := by decide
  have hquote : "'\n" = "'" ++ "\n" := by decide
  have hparen : ")\n" = ")" ++ "\n" := by decide
  have hthen : " THEN\n" = " THEN" ++ "\n" := by decide
  have hstop : ";\n" = ";" ++ "\n" := by decide
  have hclose : ");\n  END IF;\nEND $$;\n" =
      ");" ++ ("\n" ++ ("  END IF;" ++ ("\n" ++ ("END $$;" ++ "\n")))) := by decide
  unfold renderPrimaryKey
  simp only [textLines, blockLines, primaryKeyLines, text_cons, text_append, text_nil, hopen, hsource,
    hquote, hparen, hthen, hstop, hclose, String.append_assoc, String.append_empty]

private theorem renderComment_eq_text (t : String) :
    renderComment t = text (textLines (.comment t)) := by
  have hline : (· ++ "\n") ∘ (fun l => "-- " ++ String.ofList l) = commentLine := rfl
  rw [renderComment, textLines, text, List.map_map, hline]

/-- A statement is written in its lines. -/
theorem render_eq_text (s : Statement) : s.render = text s.textLines := by
  have hstop : ";\n" = ";" ++ "\n" := by decide
  have hclose : ");\n" = ");" ++ "\n" := by decide
  cases s with
  | comment t => exact renderComment_eq_text t
  | createTable t => exact renderTable_eq_text t
  | addColumn table c =>
    unfold render
    simp only [textLines, text_cons, text_nil, hstop, String.append_assoc, String.append_empty]
  | addForeignKey k => exact renderForeignKey_eq_text k
  | replacePrimaryKey table columns => exact renderPrimaryKey_eq_text table columns
  | createIndex i =>
    unfold render
    simp only [textLines, text_cons, text_nil, hclose, String.append_assoc, String.append_empty]

end Statement

namespace Column

def keyText (c : Column) : String :=
  if c.primaryKey then " PRIMARY KEY" else if c.nullable then "" else " NOT NULL"

def defaultText (c : Column) : String :=
  match c.default? with
  | some literal => " DEFAULT " ++ literal
  | none => ""

private theorem toList_definition (c : Column) : c.definition.toList =
    c.name.toList ++ (" ".toList ++ (c.type.sql.toList ++ (c.keyText.toList ++ c.defaultText.toList))) := by
  rw [definition, defaultText, keyText]
  cases c.default? <;> simp only [String.toList_append, List.append_assoc]

end Column

section Entries
open Statement
variable {s : List Char} {c : Column} {k : ForeignKey} {t : Table} {table key : String}
  {columns : List String}

private def typeTexts : List String :=
  [" integer", " numeric", " boolean", " timestamp", " text", " BIGINT", " BIGSERIAL", " jsonb", ")"]

private theorem lacks_definition_parts : ∀ type ∈ typeTexts, ∀ key ∈ [" PRIMARY KEY", "", " NOT NULL"],
    ∀ rest ∈ ["", " DEFAULT "],
      Lacks "CONSTRAINT" (type.toList ++ (key.toList ++ rest.toList)) := by
  decide

private theorem sql_eq_typeText (type : ColumnType) :
    (∃ text ∈ typeTexts, " ".toList ++ type.sql.toList = text.toList) ∨
      ∃ n : Nat, type.sql = "VARCHAR(" ++ toString n ++ ")" := by
  cases type with
  | varchar length => exact Or.inr ⟨length.toNat, rfl⟩
  | _ => exact Or.inl (by decide)

private theorem lacks_rest (h : c.Safe) (text : String) (htext : text ∈ typeTexts) :
    Lacks "CONSTRAINT" (text.toList ++ (c.keyText.toList ++ c.defaultText.toList)) := by
  have hP := breakable_lacks_constraint
  have hkey : c.keyText ∈ [" PRIMARY KEY", "", " NOT NULL"] := by
    rw [Column.keyText]
    split
    · decide
    · split <;> decide
  rw [Column.defaultText]
  cases hdefault : c.default? with
  | none => exact lacks_definition_parts text htext _ hkey "" (by decide)
  | some literal =>
    obtain ⟨word, hword, rfl⟩ := h.quoted literal hdefault
    have hparts := lacks_definition_parts text htext _ hkey " DEFAULT " (by decide)
    have hquoted := hP.firm_quoted (hP.of_firm (hP.firm_plain hword)) _ [] hparts hP.nil
    simpa only [String.toList_append, List.append_assoc, List.append_nil] using hquoted

private theorem lacks_definition (h : c.Safe) (hs : Lacks "CONSTRAINT" s) :
    Lacks "CONSTRAINT" (s ++ c.definition.toList) := by
  have hP := breakable_lacks_constraint
  rw [c.toList_definition]
  refine hP.firm_plain h.name s _ hs ?_
  rcases sql_eq_typeText c.type with ⟨text, htext, hsql⟩ | ⟨n, hsql⟩
  · rw [← List.append_assoc, hsql]
    exact lacks_rest h text htext
  · have hstart : Lacks "CONSTRAINT" (" ".toList ++ "VARCHAR(".toList) := by decide
    have hrest := lacks_rest h ")" (by decide)
    rw [hsql]
    simpa only [String.toList_append, List.append_assoc] using
      hP.firm_plain (plain_toString n) _ _ hstart hrest

private theorem lacks_foreignKeyClause (h : k.Safe) :
    Lacks "ALTER TABLE" (" ".toList ++ (foreignKeyClause k).toList) := by
  have hP := breakable_lacks_alter
  obtain ⟨hstart, hbetween, haction⟩ : Lacks "ALTER TABLE" (" ".toList ++ "FOREIGN KEY (".toList) ∧
      Lacks "ALTER TABLE" ") REFERENCES ".toList ∧ ∀ action ∈ [OnDelete.cascade, .setNull],
        Lacks "ALTER TABLE" ("(id) ON DELETE ".toList ++ action.sql.toList) := by decide
  have hreferenced := hP.firm_plain h.referencedTable _ _ hbetween
    (haction k.onDelete (by cases k.onDelete <;> simp))
  unfold foreignKeyClause
  simpa only [String.toList_append, List.append_assoc] using
    hP.firm_plain h.column _ _ hstart hreferenced

private theorem lacks_columns {start : List Char} (hcolumns : ∀ column ∈ columns, Plain column)
    (hstart : Lacks "CONSTRAINT" start) (hend : Lacks "CONSTRAINT" ")".toList) :
    Lacks "CONSTRAINT" (start ++ ((commas columns).toList ++ ")".toList)) := by
  have hP := breakable_lacks_constraint
  exact hP.commas (by decide) (fun column hcolumn => hP.firm_plain (hcolumns column hcolumn)) hstart
    hend (hP.snoc (by decide) hstart)

private theorem loose_tableEntries (h : t.Safe) : ∀ entry ∈ tableEntries t, Loose ("  " ++ entry).toList := by
  have hP := breakable_lacks_alter
  obtain ⟨hblank, hprimary, hunique, hend⟩ : Lacks "CONSTRAINT" "  ".toList ∧
      Lacks "CONSTRAINT" ("  ".toList ++ "PRIMARY KEY (".toList) ∧
      Lacks "CONSTRAINT" ("  ".toList ++ "UNIQUE (".toList) ∧ Lacks "CONSTRAINT" ")".toList := by
    decide
  obtain ⟨hconstraint, hcheck, hcompare, hclose⟩ :
      Lacks "ALTER TABLE" ("  ".toList ++ "CONSTRAINT ".toList) ∧ Lacks "ALTER TABLE" " CHECK (".toList ∧
      Lacks "ALTER TABLE" " <> ".toList ∧ Lacks "ALTER TABLE" ")".toList := by decide
  simp only [tableEntries, List.forall_mem_append, List.forall_mem_map, String.toList_append,
    List.append_assoc]
  refine ⟨?columns, ?compositeKey, ?uniqueKeys, ?foreignKeys, ?checks⟩
  case columns => exact fun c hc => Or.inr (lacks_definition (h.columns c hc) hblank)
  case compositeKey =>
    intro key hkey
    have hline := lacks_columns (h.compositeKey key (Option.mem_toList.mp hkey)) hprimary hend
    exact Or.inr (by simpa only [List.append_assoc] using hline)
  case uniqueKeys =>
    intro key hkey
    have hline := lacks_columns (h.uniqueKeys key hkey) hunique hend
    exact Or.inr (by simpa only [List.append_assoc] using hline)
  case foreignKeys =>
    intro k hk
    have hline := hP.firm_plain (h.foreignKeys k hk).name _ _ hconstraint
      (lacks_foreignKeyClause (h.foreignKeys k hk))
    exact Or.inl (by simpa only [List.append_assoc] using hline)
  case checks =>
    intro check hmem
    obtain ⟨left, right, hleft, hright, hexpression⟩ := (h.checks check hmem).compares
    have hcompared := hP.firm_plain hleft _ _ hcheck (hP.firm_plain hright _ _ hcompare hclose)
    have hline := hP.firm_plain (h.checks check hmem).name _ _ hconstraint hcompared
    rw [hexpression]
    exact Or.inl (by simpa only [String.toList_append, List.append_assoc] using hline)

private theorem loose_entryLines {entries : List String} (h : ∀ entry ∈ entries, Loose ("  " ++ entry).toList) :
    ∀ line ∈ entryLines entries, Loose line.toList := by
  induction entries with
  | nil => exact List.forall_mem_singleton.mpr (Or.inl breakable_lacks_alter.nil)
  | cons entry entries ih =>
    obtain ⟨hentry, hentries⟩ := List.forall_mem_cons.mp h
    cases entries with
    | nil => exact List.forall_mem_singleton.mpr hentry
    | cons entry' entries =>
      refine List.forall_mem_cons.mpr ⟨?_, ih hentries⟩
      rw [String.toList_append]
      exact hentry.snoc (by decide)

/-- The lines that make a table need no block. -/
theorem loose_createTable (h : t.Safe) : ∀ line ∈ textLines (.createTable t), Loose line.toList := by
  have hP := breakable_lacks_constraint
  obtain ⟨hstart, hopen, hclose⟩ : Lacks "CONSTRAINT" "CREATE TABLE IF NOT EXISTS ".toList ∧
      Lacks "CONSTRAINT" " (".toList ∧ Lacks "CONSTRAINT" ");".toList := by decide
  have hline := hP.firm_plain h.name _ _ hstart hopen
  refine List.forall_mem_cons.mpr ⟨Or.inr ?_, List.forall_mem_append.mpr
    ⟨loose_entryLines (loose_tableEntries h), List.forall_mem_singleton.mpr (Or.inr hclose)⟩⟩
  simpa only [String.toList_append, List.append_assoc] using hline

/-- The line that adds a column needs no block. -/
theorem loose_addColumn (htable : Plain table) (h : c.Safe) :
    ∀ line ∈ textLines (.addColumn table c), Loose line.toList := by
  have hP := breakable_lacks_constraint
  obtain ⟨hstart, hadd⟩ : Lacks "CONSTRAINT" "ALTER TABLE ".toList ∧
      Lacks "CONSTRAINT" " ADD COLUMN IF NOT EXISTS ".toList := by decide
  have hline := hP.firm_plain htable _ _ hstart (lacks_definition h hadd)
  refine List.forall_mem_singleton.mpr ?_
  rw [String.toList_append]
  refine Loose.snoc (Or.inr ?_) (by decide)
  simpa only [String.toList_append, List.append_assoc] using hline

/-- The line that makes an index needs no block. -/
theorem loose_createIndex {i : Index} (h : i.Safe) :
    ∀ line ∈ textLines (.createIndex i), Loose line.toList := by
  have hP := breakable_lacks_constraint
  obtain ⟨hstart, hon, hopen, hclose⟩ : Lacks "CONSTRAINT" "CREATE INDEX IF NOT EXISTS ".toList ∧
      Lacks "CONSTRAINT" " ON ".toList ∧ Lacks "CONSTRAINT" "(".toList ∧
      Lacks "CONSTRAINT" ");".toList := by decide
  have hline := hP.firm_plain h.name _ _ hstart
    (hP.firm_plain h.table _ _ hon (hP.firm_plain h.column _ _ hopen hclose))
  refine List.forall_mem_singleton.mpr (Or.inr ?_)
  simpa only [String.toList_append, List.append_assoc] using hline

private theorem tame_where (hkey : Plain key) (htable : Plain table) :
    Tame ("    WHERE constraint_name = '" ++ key ++ "' AND table_name = '" ++ table ++ "'").toList := by
  have hP := breakable_tame
  obtain ⟨hstart, hand, hend⟩ : Tame "    WHERE constraint_name = '".toList ∧
      Tame "' AND table_name = '".toList ∧ Tame "'".toList := by decide
  simpa only [String.toList_append, List.append_assoc] using
    hP.firm_plain hkey _ _ hstart (hP.firm_plain htable _ _ hand hend)

/-- The block guards what is inside of it. -/
theorem tame_foreignKeyLines (h : k.Safe) : ∀ line ∈ foreignKeyLines k, Tame line.toList := by
  have hP := breakable_tame
  obtain ⟨hbegin, hif, hselect, hthen, halter, hadd, hend⟩ : Tame "BEGIN".toList ∧
      Tame "  IF NOT EXISTS (".toList ∧
      Tame "    SELECT 1 FROM information_schema.table_constraints".toList ∧
      Tame "  ) THEN".toList ∧ Tame "    ALTER TABLE ".toList ∧ Tame " ADD CONSTRAINT ".toList ∧
      Tame "  END IF;".toList := by decide
  have haltered : Tame ("    ALTER TABLE " ++ k.table ++ " ADD CONSTRAINT " ++ k.name ++ " " ++
      foreignKeyClause k ++ ";").toList := by
    have hline := hP.firm_plain h.table _ _ halter
      (hP.firm_plain h.name _ _ hadd (lacks_foreignKeyClause h).1)
    rw [String.toList_append]
    refine hP.snoc (by decide) ?_
    simpa only [String.toList_append, List.append_assoc] using hline
  simp only [foreignKeyLines, List.forall_mem_cons]
  exact ⟨hbegin, hif, hselect, tame_where h.name h.table, hthen, haltered, hend, List.forall_mem_nil _⟩

/-- The lines that replace a key are tame inside of their block. -/
theorem tame_primaryKeyLines (htable : Plain table) (hkey : Plain (primaryKeyName table))
    (hcolumns : ∀ column ∈ columns, Plain column) :
    ∀ line ∈ primaryKeyLines table columns, Tame line.toList := by
  have hP := breakable_tame
  obtain ⟨hbegin, hif, hselect, hin, hless, hthen, hend⟩ : Tame "BEGIN".toList ∧
      Tame "  IF (".toList ∧
      Tame "    SELECT count(*) FROM information_schema.key_column_usage".toList ∧
      Tame "      AND column_name IN (".toList ∧ Tame "  ) < ".toList ∧ Tame " THEN".toList ∧
      Tame "  END IF;".toList := by decide
  obtain ⟨halter, hdrop, hadd, hprimary, hparen, hclose, hstop⟩ : Tame "    ALTER TABLE ".toList ∧
      Tame " DROP CONSTRAINT IF EXISTS ".toList ∧ Tame " ADD CONSTRAINT ".toList ∧
      Tame " PRIMARY KEY (".toList ∧ Tame ")".toList ∧ Tame ");".toList ∧ Tame ";".toList := by
    decide
  have hcovered : Tame ("      AND column_name IN (" ++
      commas (columns.map fun c => "'" ++ c ++ "'") ++ ")").toList := by
    have hquoted : ∀ name ∈ columns.map fun c => "'" ++ c ++ "'", Firm Tame name.toList := by
      refine List.forall_mem_map.mpr fun column hcolumn => ?_
      have hfirm := hP.firm_quoted (hP.of_firm (hP.firm_plain (hcolumns column hcolumn)))
      simpa only [String.toList_append, List.append_assoc] using hfirm
    simpa only [String.toList_append, List.append_assoc] using
      hP.commas (by decide) hquoted hin hparen (hP.snoc (by decide) hin)
  have hcounted : Tame ("  ) < " ++ toString columns.length ++ " THEN").toList := by
    simpa only [String.toList_append, List.append_assoc] using
      hP.firm_plain (plain_toString _) _ _ hless hthen
  have hdropped : Tame ("    ALTER TABLE " ++ table ++ " DROP CONSTRAINT IF EXISTS " ++
      primaryKeyName table ++ ";").toList := by
    simpa only [String.toList_append, List.append_assoc] using
      hP.firm_plain htable _ _ halter (hP.firm_plain hkey _ _ hdrop hstop)
  have hadded : Tame ("    ALTER TABLE " ++ table ++ " ADD CONSTRAINT " ++ primaryKeyName table ++
      " PRIMARY KEY (" ++ commas columns ++ ");").toList := by
    have hlist := hP.commas (by decide) (fun column hcolumn => hP.firm_plain (hcolumns column hcolumn))
      hprimary hclose (hP.join (by decide) hprimary hstop)
    simpa only [String.toList_append, List.append_assoc] using
      hP.firm_plain htable _ _ halter (hP.firm_plain hkey _ _ hadd hlist)
  simp only [primaryKeyLines, List.forall_mem_cons]
  exact ⟨hbegin, hif, hselect, tame_where hkey htable, hcovered, hcounted, hdropped, hadded, hend,
    List.forall_mem_nil _⟩

end Entries

end SchemaSynth
