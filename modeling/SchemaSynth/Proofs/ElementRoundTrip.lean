import SchemaSynth.Proofs.ImportedElements
import SchemaSynth.Proofs.Records

/-! What is written of the elements of boards is read back as the elements. -/
namespace SchemaSynth
open Json Decoder Slots

private theorem ClassNode.reads_encode (c : ClassNode) : Reads ClassNode.decode c.encode c := by
  intro o
  have hid := reads_identifier c.id
  have hname : Reads nameText (.text c.name) c.name := (reads_text c.name).orElse (by simp)
  have hmembers (ss : List String) : Reads members (.texts ss) ss :=
    (reads_texts ss).orElse (by simp [Value.texts])
  have hslots : Slots.ofValue "struct ClassNode" fields o c.encode =
      .ok [("attributes", Value.texts c.attributes), ("id", .text c.id),
        ("methods", .texts c.methods), ("name", .text c.name)] := by
    refine ofValue_of_fits _ ["attributes", "id", "methods", "name"] rfl (by decide) (by decide) ?_
    simp only [List.forall_mem_cons, List.not_mem_nil, false_imp_iff, implies_true, and_true]
    exact ⟨.of_reads rfl (hmembers c.attributes), .of_reads rfl hid,
      .of_reads rfl (hmembers c.methods), .of_reads rfl hname⟩
  simp only [ClassNode.decode, hslots, bind, Except.bind]
  rw [defaulted_of_reads rfl hid, defaulted_of_reads rfl hname,
    defaulted_of_reads rfl (hmembers c.attributes), defaulted_of_reads rfl (hmembers c.methods)]
  rfl

private theorem EdgeElement.reads_encodeFields (e : EdgeElement) :
    Reads EdgeElement.decode (.object e.encodeFields) e := by
  intro o
  have hend (s : String) := reads_identifier s
  have htoken (s : String) : Reads token (.text s) s := (reads_text s).orElse (by simp)
  have hslots : Slots.ofValue "struct EdgeElement" fields o (.object e.encodeFields) =
      .ok e.encodeFields := by
    refine ofValue_of_fits _ ["from", "label", "multiplicityFrom", "multiplicityTo", "to"] rfl
      (by decide) (by decide) ?_
    simp only [encodeFields, List.forall_mem_cons, List.not_mem_nil, false_imp_iff, implies_true,
      and_true]
    exact ⟨.of_reads rfl (hend e.source), .of_reads rfl (htoken e.label),
      .of_reads rfl (htoken e.multiplicityFrom), .of_reads rfl (htoken e.multiplicityTo),
      .of_reads rfl (hend e.target)⟩
  simp only [EdgeElement.decode, hslots, bind, Except.bind]
  rw [defaulted_of_reads rfl (hend e.source), defaulted_of_reads rfl (hend e.target),
    defaulted_of_reads rfl (htoken e.multiplicityFrom), defaulted_of_reads rfl (htoken e.multiplicityTo),
    defaulted_of_reads rfl (htoken e.label)]
  rfl

private theorem RelationshipKind.lookup_known (kind : RelationshipKind) :
    kind.name ≠ "Class" ∧ known.lookup kind.name = some kind := by
  cases kind <;> decide

namespace DiagramElement

private theorem decode_encode (x : DiagramElement) (o : Origin) : decode o x.encode = .ok x := by
  cases x with
  | classNode c =>
    have hrest : splitTag "type" "internally tagged enum DiagramElement" tagName (encode (.classNode c)) =
        .ok ("Class", c.encode) := rfl
    rw [decode, hrest]
    simp only [bind, Except.bind, decodeTagged, if_true, c.reads_encode .element]
    rfl
  | relationship kind e =>
    obtain ⟨hclass, hknown⟩ := kind.lookup_known
    have hrest : splitTag "type" "internally tagged enum DiagramElement" tagName
        (encode (.relationship kind e)) = .ok (kind.name, .object e.encodeFields) := rfl
    rw [decode, hrest]
    simp only [bind, Except.bind, decodeTagged, if_neg hclass, hknown, e.reads_encodeFields .element]
    rfl
  | other => rfl

end DiagramElement

namespace Import

private theorem element_encode (x : DiagramElement) : element x.encode = .ok x := by
  have hdecode := x.decode_encode .document
  cases x <;>
    · rw [DiagramElement.encode] at hdecode ⊢
      rw [element, show tagged _ = .ok _ from rfl]
      simp only [bind, Except.bind, hdecode]
      rfl

private theorem ofElements_encode (boards : List (List DiagramElement)) :
    ofElements (boards.map (·.map (·.encode))) = ⟨.ofBoards boards, boards.length, []⟩ := by
  have hdecoded : ((fun v => (element v).toOption.bind some) ∘ DiagramElement.encode) = some := by
    funext x
    rw [Function.comp, element_encode]
    rfl
  have hunderstood : (outcomes (boards.map (·.map (·.encode)))).filterMap (·.element?) = boards.flatten := by
    have h := filterMap_element? (boards.map (·.map (·.encode))) some
    rw [List.filterMap_some] at h
    rw [h, ← List.map_flatten, List.filterMap_map, hdecoded, List.filterMap_some]
  have hwarned : (ofElements (boards.map (·.map (·.encode)))).warnings = [] := by
    refine List.eq_nil_iff_forall_not_mem.mpr fun w hw => ?_
    obtain ⟨items, v, hitems, hv, hfault⟩ := mem_warnings.mp hw
    obtain ⟨board, _, rfl⟩ := List.mem_map.mp (List.mem_of_getElem? hitems)
    obtain ⟨x, _, rfl⟩ := List.mem_map.mp (List.mem_of_getElem? hv)
    rw [element_encode] at hfault
    cases hfault
  have hdiagram : (ofElements (boards.map (·.map (·.encode)))).diagram = .ofBoards boards := by
    rw [ofElements, hunderstood, Diagram.ofBoards]
  have hcount : (ofElements (boards.map (·.map (·.encode)))).boardCount = boards.length :=
    List.length_map _
  rw [← hdiagram, ← hcount, ← hwarned]

/-- Boards as they are written, with or without their key, are read as they were and with nothing
warned of. -/
theorem import_of_encoded_boards (boards : List (List DiagramElement)) :
    let encoded : Value := .list (boards.map fun board => .list (board.map (·.encode)))
    ofValue encoded = .ok ⟨.ofBoards boards, boards.length, []⟩ ∧
      ofValue (.object [("elementsByBoard", encoded)]) = .ok ⟨.ofBoards boards, boards.length, []⟩ := by
  intro encoded
  have hencoded : encoded = .list ((boards.map (·.map (·.encode))).map .list) := by
    rw [List.map_map]
    rfl
  rw [hencoded, ← ofElements_encode boards]
  exact ⟨ofValue_of_boards (.bare _), ofValue_of_boards (.preferred rfl)⟩

end Import
end SchemaSynth
