import SchemaSynth.Proofs.PrintedValues
import SchemaSynth.Proofs.RoundTrips

/-! What is printed of diagrams, generations and responses is read as what it was printed of. -/
namespace SchemaSynth
open Json

namespace Json
variable {depth : Nat} {v w : Value}

private theorem Writable.of_alike (h : Writable depth w) (hv : v.Alike w) : Writable depth v := by
  induction h generalizing v with
  | null depth =>
    cases hv
    exact .null depth
  | boolean depth b =>
    cases hv
    exact .boolean depth b
  | ofNat depth h =>
    cases hv
    exact .ofNat depth h
  | text depth s =>
    cases hv
    exact .text depth s
  | list _ ih =>
    cases hv with
    | list hitems =>
      refine .list fun v hv => ?_
      obtain ⟨w, hw, halike⟩ := hitems.exists_mem hv
      exact ih w hw halike
  | object _ ih =>
    cases hv with
    | object hfields moved =>
      refine .object fun field hfield => ?_
      obtain ⟨w, hw, halike⟩ := hfields.exists_mem hfield
      exact ih _ (moved.mem_iff.mp hw) halike

private theorem writable_list {β : Type} {write : β → Value} {bs : List β}
    (h : ∀ b ∈ bs, Writable depth (write b)) :
    Writable (depth + 1) (.list (bs.map write)) :=
  .list (List.forall_mem_map.mpr h)

private theorem writable_texts (depth : Nat) (ss : List String) : Writable (depth + 1) (.texts ss) :=
  writable_list fun s _ => .text depth s

end Json

section Schema
variable (depth : Nat)

private theorem ColumnType.writable_encode (t : ColumnType) : Writable (depth + 1) t.encode := by
  cases t with
  | varchar length =>
    have hlength : length.toNat < Word.limit 64 := Nat.lt_trans length.toNat_lt (by decide)
    exact .object (List.forall_mem_singleton.mpr (.ofNat depth hlength))
  | _ => exact .text _ _

private theorem OnDelete.writable_encode (a : OnDelete) : Writable depth a.encode := by
  cases a <;> exact .text _ _

private theorem Column.writable_encode (c : Column) : Writable (depth + 2) c.encode := by
  have htype := c.type.writable_encode depth
  refine .object ?_
  cases c.default? <;> simp [htype, Writable.text, Writable.boolean]

private theorem ForeignKey.writable_encode (k : ForeignKey) : Writable (depth + 1) k.encode := by
  have honDelete := k.onDelete.writable_encode depth
  refine .object ?_
  simp [honDelete, Writable.text]

private theorem Check.writable_encode (c : Check) : Writable (depth + 1) c.encode :=
  .object (by simp [Writable.text])

private theorem Index.writable_encode (i : Index) : Writable (depth + 1) i.encode :=
  .object (by simp [Writable.text])

private theorem Table.writable_encode (t : Table) : Writable (depth + 4) t.encode := by
  have hcolumns := writable_list fun (c : Column) (_ : c ∈ t.columns) => c.writable_encode depth
  have huniqueKeys := writable_list fun (key : List String) (_ : key ∈ t.uniqueKeys) =>
    writable_texts (depth + 1) key
  have hforeignKeys := writable_list fun (k : ForeignKey) (_ : k ∈ t.foreignKeys) =>
    k.writable_encode (depth + 1)
  have hchecks := writable_list fun (c : Check) (_ : c ∈ t.checks) => c.writable_encode (depth + 1)
  refine .object ?_
  cases t.compositeKey <;> simp [hcolumns, huniqueKeys, hforeignKeys, hchecks, writable_texts, Writable.text]

private theorem Statement.writable_encode (s : Statement) : Writable (depth + 5) s.encode := by
  cases s with
  | comment text => exact .object (by simp [Writable.text])
  | createTable t => exact .object (by simp [Writable.text, t.writable_encode depth])
  | addColumn table c => exact .object (by simp [Writable.text, c.writable_encode (depth + 2)])
  | addForeignKey k => exact .object (by simp [Writable.text, k.writable_encode (depth + 3)])
  | replacePrimaryKey table columns => exact .object (by simp [Writable.text, writable_texts])
  | createIndex i => exact .object (by simp [Writable.text, i.writable_encode (depth + 3)])

end Schema

/-- Counts that fit 64 bits. -/
structure Statistics.Sized (s : Statistics) : Prop where
  classes : s.classCount < Word.limit 64
  relationships : s.relationshipCount < Word.limit 64
  tables : s.tableCount < Word.limit 64

/-- Counts and positions of edges that fit 64 bits. -/
structure Generation.Sized (g : Generation) : Prop where
  statistics : g.statistics.Sized
  edges : ∀ a ∈ g.appliedRules, ∀ i ∈ a.edges, i < Word.limit 64

def Response.Sized : Response → Prop
  | .generated d => d.statistics.Sized
  | .failed _ => True

section Synthesis
variable (depth : Nat)

private theorem RuleApplication.writable_encode (a : RuleApplication) (h : ∀ i ∈ a.edges, i < Word.limit 64) :
    Writable (depth + 7) a.encode := by
  have hedges := writable_list fun i hi => Writable.ofNat (depth + 5) (h i hi)
  have hstatements := writable_list fun (s : Statement) (_ : s ∈ a.statements) => s.writable_encode depth
  refine .object ?_
  simp [hedges, hstatements, Rule.encode, Writable.text]

private theorem Statistics.Sized.writable_encode {s : Statistics} (h : s.Sized) :
    Writable (depth + 1) s.encode :=
  .object (by simp [Writable.ofNat, h.classes, h.relationships, h.tables])

private theorem Generation.Sized.writable_encode {g : Generation} (h : g.Sized) :
    Writable (depth + 9) g.encode := by
  have happlied := writable_list fun (a : RuleApplication) ha => a.writable_encode depth (h.edges a ha)
  have hstatistics := h.statistics.writable_encode (depth + 7)
  refine .object ?_
  simp [happlied, hstatistics, writable_texts, Writable.text]

end Synthesis

section Diagrams
variable (depth : Nat)

private theorem Multiplicity.writable_encode (m : Multiplicity) : Writable (depth + 1) m.encode := by
  cases m with
  | other token => exact .object (List.forall_mem_singleton.mpr (.text _ _))
  | _ => exact .text _ _

private theorem ClassNode.writable_encode (c : ClassNode) : Writable (depth + 2) c.encode :=
  .object (by simp [writable_texts, Writable.text])

private theorem RelationshipEdge.writable_encode (e : RelationshipEdge) : Writable (depth + 2) e.encode := by
  have hfrom := e.multiplicityFrom.writable_encode depth
  have hto := e.multiplicityTo.writable_encode depth
  refine .object ?_
  simp [hfrom, hto, RelationshipKind.encode, Writable.text]

private theorem Diagram.writable_encode (d : Diagram) : Writable (depth + 4) d.encode := by
  have hclasses := writable_list fun (c : ClassNode) (_ : c ∈ d.classes) => c.writable_encode depth
  have hrelationships := writable_list fun (e : RelationshipEdge) (_ : e ∈ d.relationships) =>
    e.writable_encode depth
  refine .object ?_
  simp [hclasses, hrelationships]

end Diagrams

section Responses

private theorem Response.Sized.writable_encode {r : Response} (h : r.Sized) (depth : Nat) :
    Writable (depth + 2) r.encode := by
  cases r with
  | generated d =>
    have hstatistics := Statistics.Sized.writable_encode depth h
    refine .object ?_
    cases d.warnings <;> simp [hstatistics, writable_texts, Writable.text, Writable.boolean]
  | failed r => exact .object (by simp [Writable.text, Writable.boolean])

private theorem Response.read_of_printed {r : Response} {v : Value} {s : String} (h : r.Sized)
    (hv : v.Alike r.encode) (hs : v.Printed s) : Response.read s = .ok r := by
  obtain ⟨c, hread, hend⟩ := hs.readValue ((h.writable_encode 125).of_alike hv) rfl
  simp only [Response.read, hread, r.codes_encode v hv .document, hend, Except.mapError, bind, Except.bind, pure,
    Except.pure]

end Responses

section Encodings

def Json.Value.field? (key : String) : Value → Option Value
  | .object fields => fields.lookup key
  | _ => none

open Decoder

/-- What is written of diagrams, generations and responses, and of all that they are made of, is read back as it
was, whatever the order of the fields. This is also so for the texts that are printed of them, with counts of 64
bits, and for the fields that are left out. A refusal is not taken for a delivery. -/
theorem encodings_decode :
    (∀ d : Diagram, Codes Diagram.decode d.encode d ∧
      ∀ (v : Value) (s : String), v.Alike d.encode → v.Printed s → readWritten s = .ok v) ∧
    (∀ g : Generation, Codes Generation.decode g.encode g ∧
      (g.Sized → ∀ (v : Value) (s : String), v.Alike g.encode → v.Printed s → readWritten s = .ok v)) ∧
    (∀ r : Response, Codes Response.decode r.encode r ∧
      (r.Sized → ∀ (v : Value) (s : String), v.Alike r.encode → v.Printed s → Response.read s = .ok r)) ∧
    (∀ (r : Refusal) (v : Value), v.Alike r.encode → ∀ o d, Response.decode o v ≠ .ok (.generated d)) ∧
    (∀ a : RuleApplication, Codes RuleApplication.decode a.encode a) ∧
    (∀ s : Statement, Codes Statement.decode s.encode s) ∧
    (∀ t : Table, Codes Table.decode t.encode t ∧
      (t.encode.field? "composite_key" = none ↔ t.compositeKey = none)) ∧
    (∀ c : Column, Codes Column.decode c.encode c ∧
      (c.encode.field? "default_value" = none ↔ c.default? = none)) ∧
    (∀ d : Delivery, Codes Delivery.decode d.encode d ∧
      (d.encode.field? "warnings" = none ↔ d.warnings = [])) ∧
    (∀ k : ForeignKey, Codes ForeignKey.decode k.encode k) ∧
    (∀ i : Index, Codes Index.decode i.encode i) ∧
    (∀ t : ColumnType, Codes ColumnType.decode t.encode t) ∧
    (∀ m : Multiplicity, Codes Multiplicity.decode m.encode m) := by
  refine ⟨fun d => ⟨d.codes_encode, fun v s hv hs => ?_⟩, fun g => ⟨g.codes_encode, fun h v s hv hs => ?_⟩,
    fun r => ⟨r.codes_encode, fun h v s hv hs => ?_⟩, fun r v hv o d hd => ?_, fun a => a.codes_encode,
    fun s => s.codes_encode, fun t => ⟨t.codes_encode, ?_⟩, fun c => ⟨c.codes_encode, ?_⟩,
    fun d => ⟨d.codes_encode, ?_⟩, fun k => k.codes_encode, fun i => i.codes_encode, fun t => t.codes_encode,
    fun m => m.codes_encode⟩
  · exact hs.readWritten ((d.writable_encode 123).of_alike hv) rfl
  · exact hs.readWritten ((h.writable_encode 118).of_alike hv) rfl
  · exact Response.read_of_printed h hv hs
  · have hfailed := (Response.failed r).codes_encode v hv o
    rw [hd] at hfailed
    cases hfailed
  · cases h : t.compositeKey <;> simp [Table.encode, Value.field?, h, List.lookup_cons]
  · cases h : c.default? <;> simp [Column.encode, Value.field?, h, List.lookup_cons]
  · cases h : d.warnings <;> simp [Delivery.encode, Value.field?, h, List.lookup_cons]

def Diagram.selfAssociated : Diagram :=
  ⟨[⟨"1", "A", ["id"], []⟩], [⟨.association, "1", "1", .one, .other "1..3", ""⟩]⟩

def Generation.oneTable : Generation :=
  ⟨"CREATE TABLE a;\n", ⟨1, 1, 1⟩,
    [⟨.selfReference, [0], [.createTable (.plain "a" [⟨"id", .varchar 40, false, true, none⟩])]⟩], []⟩

def Refusal.ofNothing : Refusal := ⟨false, "nothing to read"⟩

def Refusal.turned (r : Refusal) : Value :=
  .object [("error", .text r.error), ("success", .boolean r.success)]

private theorem Refusal.turned_alike (r : Refusal) : r.turned.Alike r.encode :=
  .object (.cons "error" (.text _) (.cons "success" (.boolean _) .nil)) (List.Perm.swap _ _ [])

/-- The encodings of a diagram, a generation and the two kinds of response are read back. -/
theorem oneTable_encodings_decode :
    readWritten (Diagram.selfAssociated.encode.indented 0 ++ "\n") = .ok Diagram.selfAssociated.encode ∧
    readWritten Generation.oneTable.encode.compact = .ok Generation.oneTable.encode ∧
    Response.read Refusal.ofNothing.turned.compact = .ok (.failed .ofNothing) ∧
    Response.read (Delivery.ofGeneration .oneTable).encode.compact =
      .ok (.generated (.ofGeneration .oneTable)) ∧
    Response.decode .document Refusal.ofNothing.turned ≠ .ok (.generated (.ofGeneration .oneTable)) := by
  have hsized : Generation.oneTable.Sized := ⟨⟨by decide, by decide, by decide⟩, by decide⟩
  obtain ⟨hdiagram, hgeneration, hresponse, hrefusal, _⟩ := encodings_decode
  exact ⟨(hdiagram .selfAssociated).2 _ _ (Value.alike_refl _) (.line (.indented 0)),
    (hgeneration .oneTable).2 hsized _ _ (Value.alike_refl _) .compact,
    (hresponse (.failed .ofNothing)).2 trivial _ _ (Refusal.turned_alike _) .compact,
    (hresponse (.generated (.ofGeneration .oneTable))).2 hsized.statistics _ _ (Value.alike_refl _) .compact,
    hrefusal .ofNothing _ (Refusal.turned_alike _) .document _⟩

end Encodings
end SchemaSynth
