import SchemaSynth.Diagram.Import
import SchemaSynth.Proofs.Sequence
import Mathlib.Data.List.Nodup

/-! What a document of boards is read as: its faults of shape, and an account of every element. -/
namespace SchemaSynth.Import
open Json
variable {document v : Value} {fields : List (String × Value)} {items : List Value}
  {boards : List (List Value)} {fault : ShapeFault} {o : Outcome}

/-- The value that a document gives for its boards: a list is its own, an object has it under one of
two keys. -/
inductive GivesBoards : Value → Value → Prop
  | bare (items : List Value) : GivesBoards (.list items) (.list items)
  | preferred {fields : List (String × Value)} {v : Value}
      (here : fields.lookup "elementsByBoard" = some v) : GivesBoards (.object fields) v
  | alternative {fields : List (String × Value)} {v : Value}
      (missing : fields.lookup "elementsByBoard" = none)
      (here : fields.lookup "elementosPorPizarra" = some v) : GivesBoards (.object fields) v

/-- Why a document is no list of boards that are lists. -/
inductive Misshapen : Value → ShapeFault → Prop
  | document {v : Value} (no_list : ∀ items, v ≠ .list items)
      (no_object : ∀ fields, v ≠ .object fields) : Misshapen v (.documentNotListed v.kind)
  | keys {fields : List (String × Value)} (missing : fields.lookup "elementsByBoard" = none)
      (missing' : fields.lookup "elementosPorPizarra" = none) : Misshapen (.object fields) .boardsMissing
  | boards {document v : Value} (gives : GivesBoards document v) (no_list : ∀ items, v ≠ .list items) :
      Misshapen document (.boardsNotListed v.kind)
  | board {document v : Value} {before : List (List Value)} {after : List Value}
      (gives : GivesBoards document (.list (before.map .list ++ v :: after)))
      (no_list : ∀ items, v ≠ .list items) :
      Misshapen document (.boardNotListed before.length v.kind)

def decodedClass (v : Value) : Option ClassNode :=
  match element v with
  | .ok (.classNode c) => some c
  | _ => none

def decodedEdge (v : Value) : Option RelationshipEdge :=
  match element v with
  | .ok (.relationship kind e) => some (.ofElement kind e)
  | _ => none

def warningsAt (imported : Import) (board index : Nat) : List ImportWarning :=
  imported.warnings.filter fun w => w.board = board ∧ w.element = index

def flatPlace (boards : List (List Value)) (board index : Nat) : Nat :=
  (boards.take board).flatten.length + index

/-- The elements left out and why, by their places in the boards one after the other. -/
def skipped (imported : Import) (boards : List (List Value)) : List (Nat × ElementFault) :=
  imported.warnings.map fun w => (flatPlace boards w.board w.element, w.fault)

/-- Nothing of the boards is lost: an element is decoded, or warned of once and by its own place. -/
structure Accounts (boards : List (List Value)) (imported : Import) : Prop where
  boardCount : imported.boardCount = boards.length
  classes : imported.diagram.classes = boards.flatten.filterMap decodedClass
  relationships : imported.diagram.relationships = boards.flatten.filterMap decodedEdge
  told : ∀ board index items v, boards[board]? = some items → items[index]? = some v →
    (∃ x, element v = .ok x) ∧ imported.warningsAt board index = [] ∨
      ∃ fault, element v = .error fault ∧ imported.warningsAt board index = [⟨board, index, fault⟩]
  placed : ∀ w ∈ imported.warnings, ∃ items v, boards[w.board]? = some items ∧
    items[w.element]? = some v ∧ element v = .error w.fault
  ordered : imported.warnings.Pairwise fun w w' =>
    w.board < w'.board ∨ w.board = w'.board ∧ w.element < w'.element

section Shape

private theorem findSome?_boardsKeys (fields : List (String × Value)) :
    (boardsKeys.findSome? fun key => fields.lookup key) =
      (fields.lookup "elementsByBoard").or (fields.lookup "elementosPorPizarra") := by
  simp only [boardsKeys, boardsKey, List.findSome?_cons, List.findSome?_nil]
  cases fields.lookup "elementsByBoard" <;> cases fields.lookup "elementosPorPizarra" <;> rfl

private theorem findSome?_of_gives (h : GivesBoards (.object fields) v) :
    (boardsKeys.findSome? fun key => fields.lookup key) = some v := by
  rw [findSome?_boardsKeys]
  cases h with
  | preferred here => rw [here, Option.some_or]
  | alternative missing here => rw [missing, Option.none_or, here]

/-- The boards of a document are the list that it gives for them. -/
theorem boards_of_gives (h : GivesBoards document (.list items)) : Import.boards document = .ok items := by
  cases document with
  | object fields => rw [Import.boards, findSome?_of_gives h]
  | list items => cases h; rfl
  | _ => cases h

private theorem boards_of_no_list (h : GivesBoards document v) (no_list : ∀ items, v ≠ .list items) :
    Import.boards document = .error (.boardsNotListed v.kind) := by
  cases document with
  | object fields =>
    rw [Import.boards, findSome?_of_gives h]
    cases v with
    | list items => exact absurd rfl (no_list items)
    | _ => rfl
  | list items =>
    cases h
    exact absurd rfl (no_list items)
  | _ => cases h

private theorem elementsFrom_lists (n : Nat) (boards : List (List Value)) :
    elementsFrom n (boards.map .list) = .ok boards := by
  induction boards generalizing n with
  | nil => rfl
  | cons board boards ih =>
    rw [List.map_cons, elementsFrom, ih]
    rfl

private theorem elementsFrom_no_list (n : Nat) (before : List (List Value)) (after : List Value)
    (no_list : ∀ items, v ≠ .list items) :
    elementsFrom n (before.map .list ++ v :: after) =
      .error (.boardNotListed (n + before.length) v.kind) := by
  induction before generalizing n with
  | nil =>
    cases v with
    | list items => exact absurd rfl (no_list items)
    | _ => rfl
  | cons board before ih =>
    rw [List.map_cons, List.cons_append, elementsFrom, ih, List.length_cons]
    have hn : n + 1 + before.length = n + (before.length + 1) := by omega
    rw [hn]
    rfl

private theorem lists_or_not (items : List Value) :
    (∃ boards : List (List Value), items = boards.map .list) ∨
      ∃ (before : List (List Value)) (v : Value) (after : List Value),
        items = before.map .list ++ v :: after ∧ ∀ items, v ≠ .list items := by
  induction items with
  | nil => exact Or.inl ⟨[], rfl⟩
  | cons v items ih =>
    by_cases hv : ∃ board, v = .list board
    · obtain ⟨board, rfl⟩ := hv
      rcases ih with ⟨boards, rfl⟩ | ⟨before, w, after, rfl, hw⟩
      · exact Or.inl ⟨board :: boards, rfl⟩
      · exact Or.inr ⟨board :: before, w, after, rfl, hw⟩
    · exact Or.inr ⟨[], v, items, rfl, fun board h => hv ⟨board, h⟩⟩

/-- A document of boards is imported. -/
theorem ofValue_of_boards (h : GivesBoards document (.list (boards.map .list))) :
    ofValue document = .ok (ofElements boards) := by
  rw [ofValue, boards_of_gives h]
  simp only [bind, Except.bind, elementsFrom_lists]
  rfl

/-- A document of another shape is refused for it. -/
theorem ofValue_of_misshapen (h : Misshapen document fault) :
    ofValue document = .error (.badShape fault) := by
  have hboards (hfault : Import.boards document = .error fault) :
      ofValue document = .error (.badShape fault) := by
    rw [ofValue, hfault]
    rfl
  cases h with
  | document no_list no_object =>
    cases document with
    | list items => exact absurd rfl (no_list items)
    | object fields => exact absurd rfl (no_object fields)
    | _ => rfl
  | keys missing missing' =>
    apply hboards
    rw [Import.boards, findSome?_boardsKeys, missing, missing']
    rfl
  | boards gives no_list => exact hboards (boards_of_no_list gives no_list)
  | board gives no_list =>
    rw [ofValue, boards_of_gives gives]
    simp only [bind, Except.bind, elementsFrom_no_list 0 _ _ no_list, Nat.zero_add]
    rfl

/-- A document is misshapen or has boards that are lists. -/
theorem misshapen_or_boards (document : Value) :
    (∃ fault, Misshapen document fault) ∨
      ∃ boards : List (List Value), GivesBoards document (.list (boards.map .list)) := by
  have hgiven {v : Value} (h : GivesBoards document v) :
      (∃ fault, Misshapen document fault) ∨
        ∃ boards : List (List Value), GivesBoards document (.list (boards.map .list)) := by
    by_cases hv : ∃ items, v = .list items
    · obtain ⟨items, rfl⟩ := hv
      rcases lists_or_not items with ⟨boards, rfl⟩ | ⟨before, w, after, rfl, no_list⟩
      · exact Or.inr ⟨boards, h⟩
      · exact Or.inl ⟨_, .board h no_list⟩
    · exact Or.inl ⟨_, .boards h fun items hi => hv ⟨items, hi⟩⟩
  cases document with
  | list items => exact hgiven (.bare items)
  | object fields =>
    cases here : fields.lookup "elementsByBoard" with
    | some v => exact hgiven (.preferred here)
    | none =>
      cases here' : fields.lookup "elementosPorPizarra" with
      | some v => exact hgiven (.alternative here here')
      | none => exact Or.inl ⟨_, .keys here here'⟩
  | _ => exact Or.inl ⟨_, .document (by simp) (by simp)⟩

end Shape

section Elements

private theorem mem_outcomes : o ∈ outcomes boards ↔
    ∃ items v, boards[o.board]? = some items ∧ items[o.index]? = some v ∧ o.result = element v := by
  simp only [outcomes, List.mem_flatMap, List.mem_map, Prod.exists, List.mem_zipIdx_iff_getElem?]
  constructor
  · rintro ⟨items, b, hb, v, k, hk, rfl⟩
    exact ⟨items, v, hb, hk, rfl⟩
  · rintro ⟨items, v, hb, hk, hr⟩
    exact ⟨items, o.board, hb, v, o.index, hk, by rw [← hr]⟩

private theorem outcomes_ordered (boards : List (List Value)) : (outcomes boards).Pairwise fun o o' =>
    o.board < o'.board ∨ o.board = o'.board ∧ o.index < o'.index := by
  rw [outcomes, List.pairwise_flatMap]
  constructor
  · intro x _
    rw [List.pairwise_map]
    exact (zipIdx_sorted x.1 0).imp fun h => Or.inr ⟨rfl, h⟩
  · apply (zipIdx_sorted boards 0).imp
    intro x y hxy o ho o' ho'
    obtain ⟨_, _, rfl⟩ := List.mem_map.mp ho
    obtain ⟨_, _, rfl⟩ := List.mem_map.mp ho'
    exact Or.inl hxy

private theorem map_place_board (before : List (List Value)) (board : List Value)
    (after : List (List Value)) :
    (board.zipIdx.map fun x => (flatPlace (before ++ board :: after) before.length x.2, element x.1)) =
      (board.zipIdx before.flatten.length).map fun x => (x.2, element x.1) := by
  rw [List.zipIdx_eq_map_add (i := before.flatten.length), List.map_map]
  apply List.map_congr_left
  intro x _
  simp [flatPlace]

private theorem map_place_boards (before boards : List (List Value)) :
    ((boards.zipIdx before.length).flatMap fun x =>
        x.1.zipIdx.map fun y => (flatPlace (before ++ boards) x.2 y.2, element y.1)) =
      (boards.flatten.zipIdx before.flatten.length).map fun x => (x.2, element x.1) := by
  induction boards generalizing before with
  | nil => rfl
  | cons board boards ih =>
    have hrest := ih (before ++ [board])
    simp only [List.length_append, List.length_singleton, List.append_assoc, List.singleton_append,
      List.flatten_append, List.flatten_singleton] at hrest
    rw [List.zipIdx_cons, List.flatMap_cons, hrest, map_place_board, List.flatten_cons,
      List.zipIdx_append, List.map_append]

private theorem map_place_outcomes (boards : List (List Value)) :
    ((outcomes boards).map fun o => (flatPlace boards o.board o.index, o.result)) =
      boards.flatten.zipIdx.map fun x => (x.2, element x.1) := by
  rw [outcomes, List.map_flatMap]
  simpa [Function.comp_def] using map_place_boards [] boards

private theorem map_result_outcomes (boards : List (List Value)) :
    (outcomes boards).map (·.result) = boards.flatten.map element := by
  have hplaces := congrArg (List.map Prod.snd) (map_place_outcomes boards)
  rw [List.map_map, List.map_map] at hplaces
  calc
    _ = _ := hplaces
    _ = (boards.flatten.zipIdx.map Prod.fst).map element := by rw [List.map_map]; rfl
    _ = boards.flatten.map element := by rw [List.zipIdx_map_fst]

/-- The elements that were understood are those of the boards put one after the other. -/
theorem filterMap_element? {α : Type} (boards : List (List Value)) (f : DiagramElement → Option α) :
    ((outcomes boards).filterMap (·.element?)).filterMap f =
      boards.flatten.filterMap fun v => (element v).toOption.bind f := by
  have hresults := congrArg (List.filterMap fun r => r.toOption.bind f) (map_result_outcomes boards)
  rw [List.filterMap_map, List.filterMap_map] at hresults
  rw [List.filterMap_filterMap]
  exact hresults

/-- The classes are those elements that are decoded to one, in their order. -/
theorem classes_ofElements (boards : List (List Value)) :
    (ofElements boards).diagram.classes = boards.flatten.filterMap decodedClass := by
  have hdecoded : decodedClass = fun v => (element v).toOption.bind Diagram.classOf := by
    funext v
    rw [decodedClass]
    rcases element v with _ | (_ | _ | _) <;> rfl
  rw [hdecoded]
  exact filterMap_element? boards Diagram.classOf

private theorem relationships_ofElements (boards : List (List Value)) :
    (ofElements boards).diagram.relationships = boards.flatten.filterMap decodedEdge := by
  have hdecoded : decodedEdge = fun v => (element v).toOption.bind Diagram.edgeOf := by
    funext v
    rw [decodedEdge]
    rcases element v with _ | (_ | _ | _) <;> rfl
  rw [hdecoded]
  exact filterMap_element? boards Diagram.edgeOf

end Elements

section Warnings

private theorem warning?_eq_some_iff {w : ImportWarning} :
    o.warning? = some w ↔ o.board = w.board ∧ o.index = w.element ∧ o.result = .error w.fault := by
  obtain ⟨board, index, result⟩ := o
  obtain ⟨board', index', fault⟩ := w
  cases result <;> simp [Outcome.warning?, ImportWarning.mk.injEq]

/-- Every element that is not understood is warned of, at its place. -/
theorem mem_warnings {w : ImportWarning} : w ∈ (ofElements boards).warnings ↔
    ∃ items v, boards[w.board]? = some items ∧ items[w.element]? = some v ∧
      element v = .error w.fault := by
  simp only [ofElements, List.mem_filterMap, warning?_eq_some_iff, mem_outcomes]
  constructor
  · rintro ⟨o, ⟨items, v, hb, hk, hr⟩, hboard, hindex, hfault⟩
    exact ⟨items, v, hboard ▸ hb, hindex ▸ hk, hr.symm.trans hfault⟩
  · rintro ⟨items, v, hb, hk, hfault⟩
    exact ⟨⟨w.board, w.element, element v⟩, ⟨items, v, hb, hk, rfl⟩, rfl, rfl, hfault⟩

private theorem warnings_ordered (boards : List (List Value)) :
    (ofElements boards).warnings.Pairwise fun w w' =>
      w.board < w'.board ∨ w.board = w'.board ∧ w.element < w'.element := by
  rw [ofElements, List.pairwise_filterMap]
  apply (outcomes_ordered boards).imp
  intro o o' h w hw w' hw'
  obtain ⟨hb, hk, _⟩ := warning?_eq_some_iff.mp hw
  obtain ⟨hb', hk', _⟩ := warning?_eq_some_iff.mp hw'
  rwa [hb, hk, hb', hk'] at h

private theorem error_of_mem_warnings {w : ImportWarning} {items : List Value}
    (hw : w ∈ (ofElements boards).warnings) (hb : boards[w.board]? = some items)
    (hk : items[w.element]? = some v) : element v = .error w.fault := by
  obtain ⟨items', v', hb', hk', hv'⟩ := mem_warnings.mp hw
  obtain rfl : items = items' := Option.some.inj (hb.symm.trans hb')
  obtain rfl : v = v' := Option.some.inj (hk.symm.trans hk')
  exact hv'

private theorem warningsAt_of_mem {w : ImportWarning} (hw : w ∈ (ofElements boards).warnings) :
    (ofElements boards).warningsAt w.board w.element = [w] := by
  have hnodup : (ofElements boards).warnings.Nodup := by
    apply (warnings_ordered boards).imp
    rintro x _ h rfl
    omega
  refine List.perm_singleton.mp ((List.perm_ext_iff_of_nodup (hnodup.filter _)
    (List.nodup_singleton w)).mpr fun x => ?_)
  rw [List.mem_filter, List.mem_singleton, decide_eq_true_iff]
  constructor
  · rintro ⟨hx, hboard, hindex⟩
    obtain ⟨items, v, hb, hk, hv⟩ := mem_warnings.mp hw
    have hfault : x.fault = w.fault := Except.error.inj
      ((error_of_mem_warnings hx (hboard ▸ hb) (hindex ▸ hk)).symm.trans hv)
    exact (ImportWarning.mk.injEq ..).mpr ⟨hboard, hindex, hfault⟩
  · rintro rfl
    exact ⟨hw, rfl, rfl⟩

private theorem accounts_ofElements (boards : List (List Value)) : Accounts boards (ofElements boards) where
  boardCount := rfl
  classes := classes_ofElements boards
  relationships := relationships_ofElements boards
  told := by
    intro board index items v hb hk
    cases hv : element v with
    | error fault =>
      have hw : ⟨board, index, fault⟩ ∈ (ofElements boards).warnings :=
        mem_warnings.mpr ⟨items, v, hb, hk, hv⟩
      exact Or.inr ⟨fault, rfl, warningsAt_of_mem hw⟩
    | ok x =>
      refine Or.inl ⟨⟨x, rfl⟩, List.filter_eq_nil_iff.mpr fun w hw hplace => ?_⟩
      obtain ⟨rfl, rfl⟩ : w.board = board ∧ w.element = index := by simpa using hplace
      cases hv.symm.trans (error_of_mem_warnings hw hb hk)
  placed := fun _ hw => mem_warnings.mp hw
  ordered := warnings_ordered boards

private theorem skipped_ofElements (boards : List (List Value)) :
    (ofElements boards).skipped boards = boards.flatten.zipIdx.filterMap fun x =>
      match element x.1 with
      | .ok _ => none
      | .error fault => some (x.2, fault) := by
  have h := congrArg (List.filterMap fun x : Nat × Except ElementFault DiagramElement =>
    match x.2 with
    | .ok _ => none
    | .error fault => some (x.1, fault)) (map_place_outcomes boards)
  rw [List.filterMap_map, List.filterMap_map] at h
  rw [skipped, ofElements, List.map_filterMap]
  refine (congrArg (List.filterMap · _) (funext fun o => ?_)).trans h
  obtain ⟨board, index, result⟩ := o
  cases result <;> rfl

end Warnings

def mixedBoards : List (List Value) :=
  [[.null, .object [("id", .text "a"), ("tipo", .text "Class")]], [],
    [.object [("name", .text "untagged")], .object [("id", .list []), ("type", .text "Class")]]]

example : (ofElements mixedBoards).warnings.map (·.message) =
    ["board 0 element 0: expected an object, got null", "board 2 element 0: element has no 'type' tag",
      "board 2 element 1: expected a string or number identifier, got []"] := by decide

end SchemaSynth.Import
