import SchemaSynth.Exchange.Response
import SchemaSynth.Proofs.FieldOrder
import SchemaSynth.Proofs.ImportedElements
import SchemaSynth.Proofs.PrintedValues
import SchemaSynth.Proofs.Rereading

/-! A request that writes its boards once, among the fields of an object, is answered as the import of the
same text and a generation have it. -/
namespace SchemaSynth
open Json

namespace Json
variable {key : String} {done fields : List (String × Value)}

private theorem canonicalFields_append (done before after : List (String × Value)) :
    canonicalFields done (before ++ after) = canonicalFields (canonicalFields done before) after := by
  induction before generalizing done with
  | nil => rw [canonicalFields, List.nil_append]
  | cons x before ih => rw [List.cons_append, canonicalFields, canonicalFields, ih]

private theorem lookup_canonicalFields_of_absent (h : ∀ x ∈ fields, x.1 ≠ key) :
    (canonicalFields done fields).lookup key = done.lookup key := by
  induction fields generalizing done with
  | nil => rw [canonicalFields]
  | cons x fields ih =>
    rw [canonicalFields, ih fun y hy => h y (List.mem_cons_of_mem _ hy)]
    exact lookup_putField_of_ne (h x List.mem_cons_self).symm _ _

end Json

namespace Request
variable {fuel : Nat} {first : Bool} {done fields : List (String × Value)} {c c' : Cursor} {v : Value}
  {s : String}

def isBoards (field : String × Value) : Bool :=
  boardsKeys.contains field.1

def boardsAmong (boards : Option Value) (fields : List (String × Value)) : Value :=
  (boards.or ((fields.find? isBoards).map (·.2))).getD .null

private theorem readFields_of_document (h : Json.readFields .keep fuel innerDepth first done c = .ok (v, c')) :
    ∃ fields, v = .object (done.reverse ++ fields) ∧ ∀ boards fuel', 2 * c.rest.length < fuel' →
      boards.toList.length + fields.countP isBoards ≤ 1 →
      readFields fuel' first boards c = .ok (boardsAmong boards fields, c') := by
  induction fuel generalizing first done c with
  | zero => cases h
  | succ fuel ih =>
    cases fieldsRead h with
    | closed closes =>
      refine ⟨[], by simp, fun boards fuel' hfuel _ => ?_⟩
      obtain ⟨fuel', rfl⟩ := Nat.exists_eq_add_one.mpr (show 0 < fuel' by omega)
      simp only [readFields, closes]
      simp [boardsAmong]
    | @field x cs key w _ c₁ c₂ c₃ _ starts stays separated keyRead colonRead valueRead rest =>
      have hentry := c.length_entry_le first
      have hkey := readKey_rereads keyRead
      have hvalue := (rereadable fuel).value valueRead
      have hlt₁ := hkey.1
      have hlt₂ := length_readColon_lt colonRead
      have hlt₃ := hvalue.1
      obtain ⟨fields, rfl, hfields⟩ := ih rest
      refine ⟨(key, w) :: fields, by simp, fun boards fuel' hfuel hone => ?_⟩
      obtain ⟨fuel', rfl⟩ := Nat.exists_eq_add_one.mpr (show 0 < fuel' by omega)
      simp only [readFields, starts]
      rw [if_neg separated, ← Cursor.entry]
      refine bind_eq_ok.mpr ⟨_, hkey.kept (by omega), ?_⟩
      dsimp only
      by_cases hboards : boardsKeys.contains key = true
      · have hkept : isBoards (key, w) = true := hboards
        rw [List.countP_cons_of_pos hkept] at hone
        have hlast : boards.toList.length = 0 ∧ fields.countP isBoards = 0 := by omega
        obtain rfl : boards = none := by simpa using hlast.1
        have hrest := hfields (some w) fuel' (by omega) (by simp [hlast.2])
        rw [if_pos hboards, if_neg (by simp)]
        refine bind_eq_ok.mpr ⟨_, colonRead, bind_eq_ok.mpr ⟨_, hvalue.kept (by omega), hrest.trans ?_⟩⟩
        simp [boardsAmong, hkept]
      · have hpassed : ¬ isBoards (key, w) = true := hboards
        rw [List.countP_cons_of_neg hpassed] at hone
        obtain ⟨w', hw', _⟩ := hvalue.2 .pass fuel' (by omega)
        have hrest := hfields boards fuel' (by omega) hone
        rw [if_neg hboards]
        refine bind_eq_ok.mpr ⟨_, colonRead, bind_eq_ok.mpr ⟨_, hw', hrest.trans ?_⟩⟩
        simp [boardsAmong, hpassed]

private theorem readBoards_of_document (h : readWritten s = .ok (.object fields))
    (hone : fields.countP isBoards = 1) :
    ∃ x, fields.find? isBoards = some x ∧ readBoards s = .ok x.2.canonical := by
  obtain ⟨⟨v, c⟩, hvalue, h⟩ := bind_eq_ok.mp h
  obtain ⟨u, hend, h⟩ := bind_eq_ok.mp h
  obtain rfl : v = .object fields := Except.ok.inj h
  obtain ⟨cs, hbracket, hfields⟩ := readFields_of_object hvalue
  obtain ⟨fields', hsame, hboards⟩ := readFields_of_document hfields
  obtain rfl : fields = fields' := Value.object.inj hsame
  obtain ⟨x, hx⟩ : ∃ x, fields.find? isBoards = some x := by
    rw [← Option.isSome_iff_exists, List.find?_isSome, ← List.countP_pos_iff]
    omega
  refine ⟨x, hx, ?_⟩
  have hlen := Cursor.length_next_skipBlanks_lt hbracket
  have hread := hboards none (fuelFor (.ofText s)) (by rw [fuelFor]; omega) (by simp [hone])
  simp only [readBoards, hbracket]
  refine bind_eq_ok.mpr ⟨_, hread, bind_eq_ok.mpr ⟨u, hend, ?_⟩⟩
  rw [boardsAmong, hx]
  rfl

private theorem gives_of_find {x : String × Value} (hone : fields.countP isBoards = 1)
    (hx : fields.find? isBoards = some x) :
    Import.GivesBoards (Value.object fields).canonical x.2.canonical := by
  obtain ⟨hkey, before, after, rfl, hbefore⟩ := List.find?_eq_some_iff_append.mp hx
  have hafter : ∀ y ∈ after, ¬ isBoards y = true := by
    rw [List.countP_append, List.countP_cons_of_pos hkey] at hone
    exact List.countP_eq_zero.mp (by omega)
  have hboards : boardsKeys.contains x.1 = true := hkey
  have hkeys : x.1 = "elementsByBoard" ∨ x.1 = "elementosPorPizarra" := by
    simpa [boardsKeys, boardsKey] using hboards
  have habsent {ys : List (String × Value)} (hys : ∀ y ∈ ys, ¬ isBoards y = true) {key : String}
      (hkey : boardsKeys.contains key = true) : ∀ y ∈ ys, y.1 ≠ key := by
    rintro y hy rfl
    exact hys y hy hkey
  have hlookup {key : String} (hkey : boardsKeys.contains key = true) :
      (canonicalFields [] (before ++ x :: after)).lookup key =
        if key = x.1 then some x.2.canonical else none := by
    rw [canonicalFields_append, canonicalFields, lookup_canonicalFields_of_absent (habsent hafter hkey)]
    split
    case isTrue h => rw [h, lookup_putField_self]
    case isFalse h =>
      rw [lookup_putField_of_ne h, lookup_canonicalFields_of_absent]
      · rfl
      · exact habsent (by simpa using hbefore) hkey
  rw [Value.canonical]
  rcases hkeys with hx | hx
  · exact .preferred (by rw [hlookup (by decide), if_pos hx.symm])
  · refine .alternative ?_ (by rw [hlookup (by decide), if_pos hx.symm])
    rw [hlookup (by decide), if_neg (by rw [hx]; decide)]

/-- Importing the document and reading it as a request come to the same, or both fail for its shape. -/
theorem ofJson_or_faults (h : readWritten s = .ok (.object fields)) (hone : fields.countP isBoards = 1) :
    (∃ i, Import.ofJson s = .ok i ∧ Request.read s = .ok i) ∨
      ∃ fault fault', Import.ofJson s = .error (.badShape fault) ∧
        Request.read s = .error (.badShape fault') := by
  obtain ⟨x, hx, hboards⟩ := readBoards_of_document h hone
  have hgives := gives_of_find hone hx
  have hjson : Import.ofJson s = Import.ofValue (Value.object fields).canonical := by
    rw [Import.ofJson, Json.read, h]
    rfl
  by_cases hlist : ∃ items, x.2.canonical = .list items
  · obtain ⟨items, hitems⟩ := hlist
    rw [hitems] at hgives hboards
    have hread : Request.read s = Import.ofValue (.list items) := by
      rw [Request.read, hboards]
      rfl
    have hsame : Import.ofValue (Value.object fields).canonical = Import.ofValue (.list items) := by
      rw [Import.ofValue, Import.ofValue, Import.boards_of_gives hgives, Import.boards_of_gives (.bare items)]
    rw [hjson, hread, hsame]
    rcases Import.misshapen_or_boards (.list items) with ⟨fault, hfault⟩ | ⟨boards, hboards⟩
    · have hfails := Import.ofValue_of_misshapen hfault
      exact Or.inr ⟨fault, fault, hfails, hfails⟩
    · have hsucceeds := Import.ofValue_of_boards hboards
      exact Or.inl ⟨_, hsucceeds, hsucceeds⟩
  · have hno : ∀ items, x.2.canonical ≠ .list items := fun items hitems => hlist ⟨items, hitems⟩
    refine Or.inr ⟨_, .requestNotListed, hjson.trans (Import.ofValue_of_misshapen (.boards hgives hno)), ?_⟩
    rw [Request.read, hboards]
    cases hv : x.2.canonical with
    | list items => exact absurd hv (hno items)
    | _ => rfl

end Request

namespace Response
variable {fields : List (String × Value)} {body : String}

/-- A request that holds one field of boards is answered with the script of the diagram that its text is
imported as, what the import warns of before what the generation does. If there is no such diagram it is
turned down for its shape. -/
theorem toRequest_of_document (hread : readWritten body = .ok (.object fields))
    (hone : fields.countP Request.isBoards = 1) (options : Options) (stamp : Moment) :
    ((toRequest body options stamp).isSuccess = true ↔ ∃ i, Import.ofJson body = .ok i) ∧
    (∀ i, Import.ofJson body = .ok i → toRequest body options stamp = .generated {
      success := true
      sql := (i.diagram.generate options stamp).sql
      statistics := (i.diagram.generate options stamp).statistics
      warnings := i.warnings.map (·.message) ++ (i.diagram.generate options stamp).warnings }) ∧
    ∀ e, Import.ofJson body = .error e →
      ∃ detail, toRequest body options stamp = .failed ⟨false, "Invalid input shape: " ++ detail⟩ := by
  rcases Request.ofJson_or_faults hread hone with ⟨i, himport, hrequest⟩ | ⟨fault, fault', himport, hrequest⟩
  · have hanswer : toRequest body options stamp = .generated (.ofImport i options stamp) := by
      rw [toRequest, hrequest]
    refine ⟨?_, ?_, ?_⟩
    · rw [hanswer]
      exact iff_of_true rfl ⟨i, himport⟩
    · intro i' h
      obtain rfl : i = i' := Except.ok.inj (himport.symm.trans h)
      exact hanswer
    · intro e h
      cases himport.symm.trans h
  · have hanswer : toRequest body options stamp =
        .failed ⟨false, "Invalid input shape: " ++ fault'.message⟩ := by
      rw [toRequest, hrequest]
      rfl
    refine ⟨?_, ?_, ?_⟩
    · rw [hanswer]
      refine iff_of_false Bool.false_ne_true ?_
      rintro ⟨i, h⟩
      cases himport.symm.trans h
    · intro i h
      cases himport.symm.trans h
    · intro e _
      exact ⟨_, hanswer⟩

def nullElement : String := "\x7b\"elementosPorPizarra\":[[null]]\x7d"

theorem readWritten_nullElement :
    readWritten nullElement = .ok (.object [("elementosPorPizarra", .list [.list [.null]])]) := by
  have htext : nullElement = (Value.object [("elementosPorPizarra", .list [.list [.null]])]).compact := by decide
  rw [htext]
  exact Value.Printed.compact.readWritten (.object (List.forall_mem_singleton.mpr
    (.list (List.forall_mem_singleton.mpr (.list (List.forall_mem_singleton.mpr (.null 124))))))) rfl

theorem ofJson_nullElement :
    Import.ofJson nullElement = .ok ⟨.ofElements [], 1, [⟨0, 0, .notAnObject "null"⟩]⟩ := by
  rw [Import.ofJson, Json.read, readWritten_nullElement]
  rfl

/-- A document with a null element is answered with a script. -/
theorem nullElement_answered :
    readWritten nullElement = .ok (.object [("elementosPorPizarra", .list [.list [.null]])]) ∧
    [("elementosPorPizarra", Value.list [.list [.null]])].countP Request.isBoards = 1 ∧
    (toRequest nullElement .standard ⟨0, false⟩).isSuccess = true :=
  ⟨readWritten_nullElement, rfl, (toRequest_of_document readWritten_nullElement rfl .standard ⟨0, false⟩).1.mpr
    ⟨_, ofJson_nullElement⟩⟩

end Response
end SchemaSynth
