import SchemaSynth.Exchange.Response
import SchemaSynth.Proofs.FieldOrder

/-! What is written of tables, statements, diagrams, generations and responses is read back as it was, whatever
the order of the fields. -/
namespace SchemaSynth
open Json Decoder Slots

section Schema

/-- Column types are read back from their encoding. -/
theorem ColumnType.codes_encode (t : ColumnType) : Codes decode t.encode t := by
  cases t with
  | varchar length =>
    have hlength : (0 : Int) ≤ length.toNat ∧ (length.toNat : Int) < Word.limit 16 := by
      have hlt : length.toNat < Word.limit 16 := length.toNat_lt
      omega
    refine codes_holding rfl ?_
    rintro _ ⟨⟩ o
    dsimp only [integerIn]
    rw [if_pos hlength]
    exact congrArg (Except.ok ∘ varchar) UInt16.ofNat_toNat
  | _ => exact codes_bare rfl

private theorem OnDelete.codes_encode (a : OnDelete) : Codes decode a.encode a := by
  cases a <;> exact codes_bare rfl

/-- Columns are read back, with a default or without. -/
theorem Column.codes_encode (c : Column) : Codes decode c.encode c := by
  intro v hv o
  obtain ⟨name, type, nullable, primaryKey, default?⟩ := c
  have hname := codes_text name
  have htype := type.codes_encode
  have hnullable := codes_boolean nullable
  have hprimaryKey := codes_boolean primaryKey
  cases default? with
  | none =>
    have hsuits : Suits fields [("column_type", type.encode), ("name", .text name),
        ("nullable", .boolean nullable), ("primary_key", .boolean primaryKey)] :=
      .cons rfl htype (.cons rfl hname (.cons rfl hnullable (.cons rfl hprimaryKey .nil)))
    obtain ⟨given, hslots, h⟩ := hv.record hsuits "struct Column"
      ["column_type", "name", "nullable", "primary_key"] rfl (by decide) (by decide) o
    rw [decode, hslots]
    simp only [bind, Except.bind]
    rw [h.required rfl hname, h.required rfl htype, h.defaulted rfl hnullable, h.defaulted rfl hprimaryKey,
      h.nullable_none rfl]
    rfl
  | some default =>
    have hdefault := codes_text default
    have hsuits : Suits fields [("column_type", type.encode), ("default_value", .text default),
        ("name", .text name), ("nullable", .boolean nullable), ("primary_key", .boolean primaryKey)] :=
      .cons rfl htype (.cons rfl (hdefault.optional nofun)
        (.cons rfl hname (.cons rfl hnullable (.cons rfl hprimaryKey .nil))))
    obtain ⟨given, hslots, h⟩ := hv.record hsuits "struct Column"
      ["column_type", "default_value", "name", "nullable", "primary_key"] rfl (by decide) (by decide) o
    rw [decode, hslots]
    simp only [bind, Except.bind]
    rw [h.required rfl hname, h.required rfl htype, h.defaulted rfl hnullable, h.defaulted rfl hprimaryKey,
      h.nullable rfl hdefault nofun]
    rfl

/-- Foreign keys are read back. -/
theorem ForeignKey.codes_encode (k : ForeignKey) : Codes decode k.encode k := by
  intro v hv o
  have hname := codes_text k.name
  have htable := codes_text k.table
  have hcolumn := codes_text k.column
  have hreferenced := codes_text k.referencedTable
  have honDelete := k.onDelete.codes_encode
  have hsuits : Suits fields [("column", .text k.column), ("name", .text k.name),
      ("on_delete", k.onDelete.encode), ("referenced_table", .text k.referencedTable),
      ("table", .text k.table)] :=
    .cons rfl hcolumn (.cons rfl hname (.cons rfl honDelete (.cons rfl hreferenced (.cons rfl htable .nil))))
  obtain ⟨given, hslots, h⟩ := hv.record hsuits "struct ForeignKey"
    ["column", "name", "on_delete", "referenced_table", "table"] rfl (by decide) (by decide) o
  rw [decode, hslots]
  simp only [bind, Except.bind]
  rw [h.required rfl hname, h.required rfl htable, h.required rfl hcolumn, h.required rfl hreferenced,
    h.required rfl honDelete]
  rfl

private theorem Check.codes_encode (c : Check) : Codes decode c.encode c := by
  intro v hv o
  have hname := codes_text c.name
  have hexpression := codes_text c.expression
  have hsuits : Suits fields [("expression", .text c.expression), ("name", .text c.name)] :=
    .cons rfl hexpression (.cons rfl hname .nil)
  obtain ⟨given, hslots, h⟩ := hv.record hsuits "struct CheckConstraint" ["expression", "name"] rfl
    (by decide) (by decide) o
  rw [decode, hslots]
  simp only [bind, Except.bind]
  rw [h.required rfl hname, h.required rfl hexpression]
  rfl

/-- Indexes are read back. -/
theorem Index.codes_encode (i : Index) : Codes decode i.encode i := by
  intro v hv o
  have hname := codes_text i.name
  have htable := codes_text i.table
  have hcolumn := codes_text i.column
  have hsuits : Suits fields [("column", .text i.column), ("name", .text i.name), ("table", .text i.table)] :=
    .cons rfl hcolumn (.cons rfl hname (.cons rfl htable .nil))
  obtain ⟨given, hslots, h⟩ := hv.record hsuits "struct Index" ["column", "name", "table"] rfl
    (by decide) (by decide) o
  rw [decode, hslots]
  simp only [bind, Except.bind]
  rw [h.required rfl hname, h.required rfl htable, h.required rfl hcolumn]
  rfl

/-- Tables are read back, with a composite key or without. -/
theorem Table.codes_encode (t : Table) : Codes decode t.encode t := by
  intro v hv o
  obtain ⟨name, columns, compositeKey, uniqueKeys, foreignKeys, checks⟩ := t
  have hname := codes_text name
  have hcolumns := codes_list fun (c : Column) (_ : c ∈ columns) => c.codes_encode
  have huniqueKeys := codes_list fun (key : List String) (_ : key ∈ uniqueKeys) => codes_texts key
  have hforeignKeys := codes_list fun (k : ForeignKey) (_ : k ∈ foreignKeys) => k.codes_encode
  have hchecks := codes_list fun (c : Check) (_ : c ∈ checks) => c.codes_encode
  cases compositeKey with
  | none =>
    have hsuits : Suits fields [("checks", .list (checks.map (·.encode))),
        ("columns", .list (columns.map (·.encode))), ("foreign_keys", .list (foreignKeys.map (·.encode))),
        ("name", .text name), ("unique_keys", .list (uniqueKeys.map .texts))] :=
      .cons rfl hchecks (.cons rfl hcolumns (.cons rfl hforeignKeys (.cons rfl hname
        (.cons rfl huniqueKeys .nil))))
    obtain ⟨given, hslots, h⟩ := hv.record hsuits "struct Table"
      ["checks", "columns", "foreign_keys", "name", "unique_keys"] rfl (by decide) (by decide) o
    rw [decode, hslots]
    simp only [bind, Except.bind]
    rw [h.required rfl hname, h.required rfl hcolumns, h.defaulted_none rfl, h.defaulted rfl huniqueKeys,
      h.defaulted rfl hforeignKeys, h.defaulted rfl hchecks]
    rfl
  | some key =>
    have hkey : Codes (.optional (.list .text)) (.texts key) (some key) := (codes_texts key).optional nofun
    have hsuits : Suits fields [("checks", .list (checks.map (·.encode))),
        ("columns", .list (columns.map (·.encode))), ("composite_key", .texts key),
        ("foreign_keys", .list (foreignKeys.map (·.encode))), ("name", .text name),
        ("unique_keys", .list (uniqueKeys.map .texts))] :=
      .cons rfl hchecks (.cons rfl hcolumns (.cons rfl hkey (.cons rfl hforeignKeys (.cons rfl hname
        (.cons rfl huniqueKeys .nil)))))
    obtain ⟨given, hslots, h⟩ := hv.record hsuits "struct Table"
      ["checks", "columns", "composite_key", "foreign_keys", "name", "unique_keys"] rfl (by decide)
      (by decide) o
    rw [decode, hslots]
    simp only [bind, Except.bind]
    rw [h.required rfl hname, h.required rfl hcolumns, h.defaulted rfl hkey, h.defaulted rfl huniqueKeys,
      h.defaulted rfl hforeignKeys, h.defaulted rfl hchecks]
    rfl

namespace Statement

private theorem one_of_rearranged {α : Type} {given : Slots} {field : String} {w : Value}
    {decode : Decoder α} {a : α}
    (h : Rearranged given [(field, w)]) (hcodes : Codes decode w a) (title : String) :
    one title field decode (.object given) = .ok a := by
  have hown : [Field.required field decode].find? (Field.named field) =
      some ⟨field, [], .refused, Field.accepts decode⟩ := by simp [Field.required, Field.named]
  have hsuits : Suits [.required field decode] [(field, w)] := .cons hown hcodes .nil
  have hslots := h.ofValue hsuits title [field] rfl (by simp [Field.required]) .element
  have hfield := h.required List.lookup_cons_self hcodes .element
  simp only [one, hslots, bind, Except.bind, hfield]

private theorem decode_of_tag {v : Value} {written : Slots} {tag : String} (hv : v.Alike (.object written))
    (hnodup : (written.map (·.1)).Nodup) (htag : written.lookup "statement" = some (.text tag))
    (hknown : tag ∈ tags) (o : Origin) :
    ∃ given, decode o v = decodeTagged tag (.object given) ∧
      Rearranged given (written.filter (·.1 != "statement")) := by
  have hread : readTag (.text tag) = .ok tag := by
    simp only [readTag, tagName, bind, Except.bind, List.contains_iff_mem.mpr hknown, if_true]
  obtain ⟨given, hsplit, h⟩ := splitTag_of_alike hv hnodup htag hread "internally tagged enum DdlStatement"
  refine ⟨given, ?_, h⟩
  rw [decode, hsplit]
  rfl

/-- Statements of every kind are read back. -/
theorem codes_encode (s : Statement) : Codes decode s.encode s := by
  intro v hv o
  cases s with
  | comment text =>
    obtain ⟨given, hdecode, h⟩ := decode_of_tag hv (by decide : ["statement", "text"].Nodup) rfl (by decide) o
    rw [hdecode, decodeTagged, if_pos rfl, one_of_rearranged h (codes_text text)]
    rfl
  | createTable t =>
    obtain ⟨given, hdecode, h⟩ := decode_of_tag hv (by decide : ["statement", "table"].Nodup) rfl (by decide) o
    rw [hdecode, decodeTagged, if_neg (by decide), if_pos rfl, one_of_rearranged h t.codes_encode]
    rfl
  | addColumn table c =>
    obtain ⟨given, hdecode, h⟩ := decode_of_tag hv (by decide : ["column", "statement", "table"].Nodup) rfl
      (by decide) o
    have htable := codes_text table
    have hsuits : Suits [.required "table" .text, .required "column" Column.decode]
        [("column", c.encode), ("table", .text table)] := .cons rfl c.codes_encode (.cons rfl htable .nil)
    have hslots := h.ofValue hsuits "struct variant DdlStatement::AddColumn" ["column", "table"] rfl (by decide)
      .element
    rw [hdecode, decodeTagged, if_neg (by decide), if_neg (by decide), if_pos rfl]
    simp only [two, hslots, bind, Except.bind]
    rw [h.required rfl htable, h.required rfl c.codes_encode]
    rfl
  | addForeignKey k =>
    obtain ⟨given, hdecode, h⟩ := decode_of_tag hv (by decide : ["foreign_key", "statement"].Nodup) rfl
      (by decide) o
    rw [hdecode, decodeTagged, if_neg (by decide), if_neg (by decide), if_neg (by decide), if_pos rfl,
      one_of_rearranged h k.codes_encode]
    rfl
  | replacePrimaryKey table columns =>
    obtain ⟨given, hdecode, h⟩ := decode_of_tag hv (by decide : ["columns", "statement", "table"].Nodup) rfl
      (by decide) o
    have htable := codes_text table
    have hcolumns := codes_texts columns
    have hsuits : Suits [.required "table" .text, .required "columns" (.list .text)]
        [("columns", .texts columns), ("table", .text table)] := .cons rfl hcolumns (.cons rfl htable .nil)
    have hslots := h.ofValue hsuits "struct variant DdlStatement::ReplacePrimaryKey" ["columns", "table"] rfl
      (by decide) .element
    rw [hdecode, decodeTagged, if_neg (by decide), if_neg (by decide), if_neg (by decide), if_neg (by decide),
      if_pos rfl]
    simp only [two, hslots, bind, Except.bind]
    rw [h.required rfl htable, h.required rfl hcolumns]
    rfl
  | createIndex i =>
    obtain ⟨given, hdecode, h⟩ := decode_of_tag hv (by decide : ["index", "statement"].Nodup) rfl (by decide) o
    rw [hdecode, decodeTagged, if_neg (by decide), if_neg (by decide), if_neg (by decide), if_neg (by decide),
      if_neg (by decide), one_of_rearranged h i.codes_encode]
    rfl

end Statement
end Schema

section Synthesis

private theorem Rule.codes_encode (r : Rule) : Codes decode r.encode r := by
  cases r <;> exact codes_bare rfl

/-- Applications are read back with their statements. -/
theorem RuleApplication.codes_encode (a : RuleApplication) : Codes decode a.encode a := by
  intro v hv o
  have hrule := a.rule.codes_encode
  have hedges := codes_list fun (i : Nat) (_ : i ∈ a.edges) => codes_count i
  have hstatements := codes_list fun (s : Statement) (_ : s ∈ a.statements) => s.codes_encode
  have hsuits : Suits fields [("edges", .list (a.edges.map .ofNat)), ("rule", a.rule.encode),
      ("statements", .list (a.statements.map (·.encode)))] :=
    .cons rfl hedges (.cons rfl hrule (.cons rfl hstatements .nil))
  obtain ⟨given, hslots, h⟩ := hv.record hsuits "struct RuleApplication" ["edges", "rule", "statements"] rfl
    (by decide) (by decide) o
  rw [decode, hslots]
  simp only [bind, Except.bind]
  rw [h.required rfl hrule, h.required rfl hedges, h.required rfl hstatements]
  rfl

private theorem Statistics.codes_encode (s : Statistics) : Codes decode s.encode s := by
  intro v hv o
  have hclasses := codes_count s.classCount
  have hrelationships := codes_count s.relationshipCount
  have htables := codes_count s.tableCount
  have hsuits : Suits fields [("classCount", .ofNat s.classCount),
      ("relationshipCount", .ofNat s.relationshipCount), ("tableCount", .ofNat s.tableCount)] :=
    .cons rfl hclasses (.cons rfl hrelationships (.cons rfl htables .nil))
  obtain ⟨given, hslots, h⟩ := hv.record hsuits "struct GenerationStatistics"
    ["classCount", "relationshipCount", "tableCount"] rfl (by decide) (by decide) o
  rw [decode, hslots]
  simp only [bind, Except.bind]
  rw [h.required rfl hclasses, h.required rfl hrelationships, h.required rfl htables]
  rfl

/-- Generations are read back as a whole. -/
theorem Generation.codes_encode (g : Generation) : Codes decode g.encode g := by
  intro v hv o
  have hsql := codes_text g.sql
  have hstatistics := g.statistics.codes_encode
  have happlied := codes_list fun (a : RuleApplication) (_ : a ∈ g.appliedRules) => a.codes_encode
  have hwarnings := codes_texts g.warnings
  have hsuits : Suits fields [("appliedRules", .list (g.appliedRules.map (·.encode))), ("sql", .text g.sql),
      ("statistics", g.statistics.encode), ("warnings", .texts g.warnings)] :=
    .cons rfl happlied (.cons rfl hsql (.cons rfl hstatistics (.cons rfl hwarnings .nil)))
  obtain ⟨given, hslots, h⟩ := hv.record hsuits "struct GenerationResult"
    ["appliedRules", "sql", "statistics", "warnings"] rfl (by decide) (by decide) o
  rw [decode, hslots]
  simp only [bind, Except.bind]
  rw [h.required rfl hsql, h.required rfl hstatistics, h.required rfl happlied, h.required rfl hwarnings]
  rfl

end Synthesis

section Diagrams

private theorem RelationshipKind.codes_encode (kind : RelationshipKind) : Codes decode kind.encode kind := by
  cases kind <;> exact codes_bare rfl

/-- Multiplicities are read back. -/
theorem Multiplicity.codes_encode (m : Multiplicity) : Codes decode m.encode m := by
  cases m with
  | other token =>
    refine codes_holding rfl ?_
    rintro _ ⟨⟩ o
    rfl
  | _ => exact codes_bare rfl

private theorem ClassNode.codes_encode (c : ClassNode) : Codes decode c.encode c := by
  intro v hv o
  have hid := codes_identifier c.id
  have hname : Codes nameText (.text c.name) c.name := (codes_text c.name).orElse nofun
  have hmembers (ss : List String) : Codes members (.texts ss) ss := (codes_texts ss).orElse nofun
  have hsuits : Suits fields [("attributes", .texts c.attributes), ("id", .text c.id),
      ("methods", .texts c.methods), ("name", .text c.name)] :=
    .cons rfl (hmembers c.attributes) (.cons rfl hid (.cons rfl (hmembers c.methods) (.cons rfl hname .nil)))
  obtain ⟨given, hslots, h⟩ := hv.record hsuits "struct ClassNode" ["attributes", "id", "methods", "name"] rfl
    (by decide) (by decide) o
  rw [decode, hslots]
  simp only [bind, Except.bind]
  rw [h.defaulted rfl hid, h.defaulted rfl hname, h.defaulted rfl (hmembers c.attributes),
    h.defaulted rfl (hmembers c.methods)]
  rfl

private theorem RelationshipEdge.codes_encode (e : RelationshipEdge) : Codes decode e.encode e := by
  intro v hv o
  have hkind := e.kind.codes_encode
  have hsource := codes_text e.source
  have htarget := codes_text e.target
  have hfrom := e.multiplicityFrom.codes_encode
  have hto := e.multiplicityTo.codes_encode
  have hlabel := codes_text e.label
  have hsuits : Suits fields [("from", .text e.source), ("kind", e.kind.encode), ("label", .text e.label),
      ("multiplicity_from", e.multiplicityFrom.encode), ("multiplicity_to", e.multiplicityTo.encode),
      ("to", .text e.target)] :=
    .cons rfl hsource (.cons rfl hkind (.cons rfl hlabel (.cons rfl hfrom (.cons rfl hto
      (.cons rfl htarget .nil)))))
  obtain ⟨given, hslots, h⟩ := hv.record hsuits "struct RelationshipEdge"
    ["from", "kind", "label", "multiplicity_from", "multiplicity_to", "to"] rfl (by decide) (by decide) o
  rw [decode, hslots]
  simp only [bind, Except.bind]
  rw [h.required rfl hkind, h.required rfl hsource, h.required rfl htarget, h.required rfl hfrom,
    h.required rfl hto, h.defaulted rfl hlabel]
  rfl

/-- Diagrams are read back. -/
theorem Diagram.codes_encode (d : Diagram) : Codes decode d.encode d := by
  intro v hv o
  have hclasses := codes_list fun (c : ClassNode) (_ : c ∈ d.classes) => c.codes_encode
  have hrelationships := codes_list fun (e : RelationshipEdge) (_ : e ∈ d.relationships) => e.codes_encode
  have hsuits : Suits fields [("classes", .list (d.classes.map (·.encode))),
      ("relationships", .list (d.relationships.map (·.encode)))] :=
    .cons rfl hclasses (.cons rfl hrelationships .nil)
  obtain ⟨given, hslots, h⟩ := hv.record hsuits "struct Diagram" ["classes", "relationships"] rfl
    (by decide) (by decide) o
  rw [decode, hslots]
  simp only [bind, Except.bind]
  rw [h.required rfl hclasses, h.required rfl hrelationships]
  rfl

end Diagrams

section Responses

/-- Deliveries are read back, with warnings or without. -/
theorem Delivery.codes_encode (d : Delivery) : Codes decode d.encode d := by
  intro v hv o
  obtain ⟨success, sql, statistics, warnings⟩ := d
  have hsuccess := codes_boolean success
  have hsql := codes_text sql
  have hstatistics := statistics.codes_encode
  have hwarnings := codes_texts warnings
  cases warnings with
  | nil =>
    have hsuits : Suits fields [("success", .boolean success), ("sql", .text sql),
        ("statistics", statistics.encode)] :=
      .cons rfl hsuccess (.cons rfl hsql (.cons rfl hstatistics .nil))
    obtain ⟨given, hslots, h⟩ := hv.record hsuits "struct GenerateResponse" ["success", "sql", "statistics"] rfl
      (by decide) (by decide) o
    rw [decode, hslots]
    simp only [bind, Except.bind]
    rw [h.required rfl hsuccess, h.required rfl hsql, h.required rfl hstatistics, h.defaulted_none rfl]
    rfl
  | cons warning rest =>
    have hsuits : Suits fields [("success", .boolean success), ("sql", .text sql),
        ("statistics", statistics.encode), ("warnings", .texts (warning :: rest))] :=
      .cons rfl hsuccess (.cons rfl hsql (.cons rfl hstatistics (.cons rfl hwarnings .nil)))
    obtain ⟨given, hslots, h⟩ := hv.record hsuits "struct GenerateResponse"
      ["success", "sql", "statistics", "warnings"] rfl (by decide) (by decide) o
    rw [decode, hslots]
    simp only [bind, Except.bind]
    rw [h.required rfl hsuccess, h.required rfl hsql, h.required rfl hstatistics, h.defaulted rfl hwarnings]
    rfl

private theorem Refusal.codes_encode (r : Refusal) : Codes decode r.encode r := by
  intro v hv o
  have hsuccess := codes_boolean r.success
  have herror := codes_text r.error
  have hsuits : Suits fields [("success", .boolean r.success), ("error", .text r.error)] :=
    .cons rfl hsuccess (.cons rfl herror .nil)
  obtain ⟨given, hslots, h⟩ := hv.record hsuits "struct ErrorResponse" ["success", "error"] rfl
    (by decide) (by decide) o
  rw [decode, hslots]
  simp only [bind, Except.bind]
  rw [h.required rfl hsuccess, h.required rfl herror]
  rfl

private theorem Delivery.decode_of_refusal {r : Refusal} {v : Value} (hv : v.Alike r.encode) (o : Origin) :
    ∃ e, decode o v = .error e := by
  obtain ⟨given, rfl, h⟩ := hv.rearranged (by decide : ["success", "error"].Nodup)
  have hkeys : ∀ y ∈ given, ∀ g, fields.find? (Field.named y.1) = some g → g.name ≠ "sql" := by
    intro y hy g hg
    have hkey : y.1 ∈ ["success", "error"] := h.keys.mem_iff.mp (List.mem_map_of_mem hy)
    simp only [List.mem_cons, List.not_mem_nil, or_false] at hkey
    rcases hkey with hkey | hkey <;> rw [hkey] at hg <;> cases hg
    decide
  have hsql : .required "sql" .text ∈ fields := .tail _ (.head _)
  obtain ⟨e, he⟩ := ofValue_of_missing hsql rfl hkeys "struct GenerateResponse"
  refine ⟨e, ?_⟩
  rw [decode, he]
  rfl

/-- Responses are read back, and a refusal is never read as a delivery. -/
theorem Response.codes_encode (r : Response) : Codes decode r.encode r := by
  intro v hv o
  cases r with
  | generated d =>
    rw [decode, d.codes_encode v hv .element]
  | failed r =>
    obtain ⟨e, he⟩ := Delivery.decode_of_refusal hv .element
    rw [decode, he]
    dsimp only
    rw [r.codes_encode v hv .element]

end Responses
end SchemaSynth
