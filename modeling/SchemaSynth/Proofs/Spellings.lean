import SchemaSynth.Proofs.FieldSpellings
import SchemaSynth.Proofs.ImportedElements
import SchemaSynth.Proofs.Sequence
import Mathlib.Logic.Relation

/-! Documents of one diagram. However the elements are spelled and wherever the boards are given, the same
elements are understood, as the same. -/
namespace SchemaSynth
open Json

namespace Import
open DiagramElement
variable {given given' : List (String × Value)} {v v' document document' : Value} {items items' : List Value}
  {boards boards' : List (List Value)}

private theorem toOption_element (given : List (String × Value)) :
    (element (.object given)).toOption = (tag? given).bind fun t => (tagName t).toOption.bind fun tag =>
      (decodeTagged tag (.object given)).toOption := by
  have hforget {x : Except DecodeError DiagramElement} :
      (x.mapError ElementFault.undecodable).toOption = x.toOption := by cases x <;> rfl
  rw [element, tagged, tag?]
  cases htype : given.lookup "type" with
  | some t =>
    refine Eq.trans (hforget.trans (toOption_decode htype)) ?_
    simp only [decodeTagged_filter (show "type" ∈ tagKeys by decide)]
    rfl
  | none =>
    cases htipo : given.lookup "tipo" with
    | none => rfl
    | some t =>
      refine Eq.trans (hforget.trans (toOption_decode (lookup_putField_self _ _ _))) ?_
      simp only [filter_putField, decodeTagged_filter (show "type" ∈ tagKeys by decide),
        decodeTagged_filter (show "tipo" ∈ tagKeys by decide)]
      rfl

/-- An element, and how it may be spelled instead: an object that has every key once, with any number of
its fields spelled in another way. -/
inductive ElementRespelled : Value → Value → Prop
  | same (v : Value) : ElementRespelled v v
  | fields {given given' : List (String × Value)} (once : (given.map (·.1)).Nodup)
      (steps : Relation.ReflTransGen Respelled given given') :
      ElementRespelled (.object given) (.object given')

private theorem ElementRespelled.toOption_element (h : ElementRespelled v v') :
    (element v').toOption = (element v).toOption := by
  cases h with
  | same => rfl
  | @fields given given' once steps =>
    have hsteps : (given'.map (·.1)).Nodup ∧
        (element (.object given')).toOption = (element (.object given)).toOption := by
      induction steps with
      | refl => exact ⟨once, rfl⟩
      | tail _ step ih =>
        obtain ⟨hnodup, hsame⟩ := ih
        refine ⟨step.nodup hnodup, Eq.trans ?_ hsame⟩
        rw [Import.toOption_element, Import.toOption_element, step.tag? hnodup]
        simp only [decodeTagged_respelled step hnodup]
    exact hsteps.2

/-- A board, and how it may be spelled instead: element by element, if it is a list. -/
inductive BoardRespelled : Value → Value → Prop
  | same (v : Value) : BoardRespelled v v
  | list {items items' : List Value} (elements : List.Forall₂ ElementRespelled items items') :
      BoardRespelled (.list items) (.list items')

/-- A document, and how it may be spelled instead: board by board, under whichever key or none. -/
inductive DocumentRespelled : Value → Value → Prop
  | same (document : Value) : DocumentRespelled document document
  | boards {document document' : Value} {items items' : List Value}
      (gives : GivesBoards document (.list items)) (gives' : GivesBoards document' (.list items'))
      (boards : List.Forall₂ BoardRespelled items items') : DocumentRespelled document document'

def understood (items : List Value) : List (Option DiagramElement) :=
  items.map fun v => (element v).toOption

/-- What an import tells but for the wording of its warnings: the diagram, the number of boards, and the
places of the elements that are left out. -/
def told (imported : Import) : Diagram × Nat × List (Nat × Nat) :=
  (imported.diagram, imported.boardCount, imported.warnings.map fun w => (w.board, w.element))

def toldOf (read : List (List (Option DiagramElement))) : Diagram × Nat × List (Nat × Nat) :=
  let all := read.zipIdx.flatMap fun (xs, board) => xs.zipIdx.map fun (x, index) => ((board, index), x)
  (.ofElements (all.filterMap (·.2)), read.length,
    all.filterMap fun x => if x.2.isNone then some x.1 else none)

private theorem told_ofElements (boards : List (List Value)) :
    (ofElements boards).told = toldOf (boards.map understood) := by
  have houtcomes : ((boards.map understood).zipIdx.flatMap fun (xs, board) =>
      xs.zipIdx.map fun (x, index) => ((board, index), x)) =
        (outcomes boards).map fun o => ((o.board, o.index), o.element?) := by
    rw [outcomes, List.map_flatMap, List.zipIdx_map, List.flatMap_map]
    simp [understood, List.zipIdx_map, Function.comp_def, Outcome.element?]
  have hwarned (o : Outcome) : (if o.element?.isNone then some (o.board, o.index) else none) =
      o.warning?.map fun w => (w.board, w.element) := by
    obtain ⟨board, index, result⟩ := o
    cases result <;> rfl
  simp only [toldOf, houtcomes, List.filterMap_map, Function.comp_def, hwarned, List.length_map]
  simp only [told, ofElements, List.map_filterMap]

private theorem BoardRespelled.map_elements (h : BoardRespelled v v') (n : Nat) :
    (elements n v').map understood = (elements n v).map understood := by
  cases h with
  | same => rfl
  | list helements =>
    exact congrArg Except.ok (map_eq_of_forall₂ helements fun _ _ h => h.toOption_element)

private theorem map_elementsFrom_cons (n : Nat) (board : Value) (rest : List Value) :
    (elementsFrom n (board :: rest)).map (·.map understood) = do
      return (← (elements n board).map understood) ::
        (← (elementsFrom (n + 1) rest).map (·.map understood)) := by
  rw [elementsFrom]
  cases elements n board with
  | error fault => rfl
  | ok items => cases elementsFrom (n + 1) rest <;> rfl

private theorem map_elementsFrom_respelled (h : List.Forall₂ BoardRespelled items items') (n : Nat) :
    (elementsFrom n items').map (·.map understood) = (elementsFrom n items).map (·.map understood) := by
  induction h generalizing n with
  | nil => rfl
  | cons hboard _ ih =>
    rw [map_elementsFrom_cons, map_elementsFrom_cons, hboard.map_elements, ih]

private theorem map_told_ofValue (h : GivesBoards document (.list items)) :
    (ofValue document).map told =
      (((elementsFrom 0 items).map (·.map understood)).map toldOf).mapError .badShape := by
  rw [ofValue, boards_of_gives h]
  simp only [bind, Except.bind]
  cases elementsFrom 0 items with
  | error fault => rfl
  | ok boards => exact congrArg Except.ok (told_ofElements boards)

/-- A document in another spelling is imported as the same diagram, and the elements at the same places are
left out, or it is refused for the same reason. -/
theorem import_respelled (h : DocumentRespelled document document') :
    (ofValue document').map told = (ofValue document).map told := by
  cases h with
  | same => rfl
  | boards gives gives' hboards =>
    rw [map_told_ofValue gives, map_told_ofValue gives', map_elementsFrom_respelled hboards]

def plainSpelling : Value := .list
  [.list [.object [("type", .text "Class"), ("id", .number (.integer 1)), ("name", .text "A")], .null,
    .object [("type", .text "Association"), ("from", .number (.integer 1)), ("to", .null),
      ("multiplicityFrom", .text "1"), ("multiplicityTo", .text "*")]],
   .list [.object [("type", .text "Class"), ("id", .list [])]]]

def otherSpelling : Value := .object [("elementosPorPizarra", .list
  [.list [.object [("id", .text "1"), ("name", .text "A"), ("tipo", .text "Class")], .null,
    .object [("tipo", .text "Association"), ("from", .text "1"), ("multOrigen", .text "1"),
      ("multDestino", .text "*")]],
   .list [.object [("tipo", .text "Class"), ("id", .list [])]]])]

private theorem plainSpelling_respelled : DocumentRespelled plainSpelling otherSpelling := by
  have hclass : ElementRespelled
      (.object [("type", .text "Class"), ("id", .number (.integer 1)), ("name", .text "A")])
      (.object [("id", .text "1"), ("name", .text "A"), ("tipo", .text "Class")]) := by
    refine .fields (by decide) ?_
    refine .head (@Respelled.tag [] _ _ (by decide)) ?_
    refine .head (@Respelled.number [_] _ "id" _ (by decide)) ?_
    exact .single (.moved (List.perm_append_singleton _ _).symm)
  have hedge : ElementRespelled
      (.object [("type", .text "Association"), ("from", .number (.integer 1)), ("to", .null),
        ("multiplicityFrom", .text "1"), ("multiplicityTo", .text "*")])
      (.object [("tipo", .text "Association"), ("from", .text "1"), ("multOrigen", .text "1"),
        ("multDestino", .text "*")]) := by
    refine .fields (by decide) ?_
    refine .head (@Respelled.tag [] _ _ (by decide)) ?_
    refine .head (@Respelled.number [_] _ "from" _ (by decide)) ?_
    refine .head (@Respelled.leftOut [_, _] _ "to" (by decide)) ?_
    refine .head (@Respelled.multiplicity [_, _] _ "multiplicityFrom" "multOrigen" _ ?_ (by decide)) ?_
    · exact Or.inl (by decide)
    refine .single (@Respelled.multiplicity [_, _, _] _ "multiplicityTo" "multDestino" _ ?_ (by decide))
    exact Or.inl (by decide)
  have hlist : ElementRespelled (.object [("type", .text "Class"), ("id", .list [])])
      (.object [("tipo", .text "Class"), ("id", .list [])]) :=
    .fields (by decide) (.single (@Respelled.tag [] _ _ (by decide)))
  exact .boards (.bare _) (.alternative rfl rfl)
    (.cons (.list (.cons hclass (.cons (.same _) (.cons hedge .nil))))
      (.cons (.list (.cons hlist .nil)) .nil))

/-- The other spelling is understood as the plain one, and the same elements are left out. -/
theorem otherSpelling_told : DocumentRespelled plainSpelling otherSpelling ∧
    (ofValue otherSpelling).map told = .ok (⟨[⟨"1", "A", [], []⟩],
      [⟨.association, "1", "", .one, .many, ""⟩]⟩, 2, [(0, 1), (1, 0)]) :=
  ⟨plainSpelling_respelled, (import_respelled plainSpelling_respelled).trans rfl⟩

end Import
end SchemaSynth
