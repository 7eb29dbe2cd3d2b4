import SchemaSynth.Json.Decode
import SchemaSynth.Proofs.Sequence
import Mathlib.Data.List.Nodup

/-! What decoders make of well-formed values: of texts, of lists, and of objects that give each field
of a record at most once. -/
namespace SchemaSynth.Json

namespace Decoder
variable {α : Type} {item : Decoder α} {v : Value} {a default : α}

def Reads (decode : Decoder α) (v : Value) (a : α) : Prop :=
  ∀ o, decode o v = .ok a

/-- A string is read as itself. -/
theorem reads_text (s : String) : Reads text (.text s) s :=
  fun _ => rfl

/-- A string is read as an id. -/
theorem reads_identifier (s : String) : Reads identifier (.text s) s :=
  fun _ => rfl

/-- A value other than null is read as without the default. -/
theorem Reads.orElse (h : Reads item v a) (hv : v ≠ .null) : Reads (orElse default item) v a := by
  intro o
  cases v with
  | null => exact absurd rfl hv
  | _ => exact h o

/-- A list is read item by item. -/
theorem reads_list {vs : List Value} {as : List α} (h : List.Forall₂ (Reads item) vs as) :
    Reads (list item) (.list vs) as := by
  intro o
  rw [list]
  induction h with
  | nil => rfl
  | cons hhead _ ih =>
    rw [List.mapM_cons, hhead o, ih]
    rfl

/-- A list of strings is read as itself. -/
theorem reads_texts (ss : List String) : Reads (list text) (.texts ss) ss := by
  apply reads_list
  induction ss with
  | nil => exact .nil
  | cons s ss ih => exact .cons (reads_text s) ih

end Decoder

namespace Field
variable {α : Type} {decode : Decoder α} {v : Value} {a : α}

/-- A value that is read is accepted. -/
theorem accepts_of_reads (h : decode.Reads v a) (o : Origin) : accepts decode o v = .ok () := by
  rw [accepts, h o]
  rfl

end Field

namespace Slots
variable {fields : List Field} {o : Origin} {seen given slots : Slots} {x y : String × Value}

/-- What an object's field is to a record: a value for the field that its key names, if there is one.
-/
def slot? (fields : List Field) (x : String × Value) : Option (String × Value) :=
  (fields.find? (Field.named x.1)).map fun f => (f.name, x.2)

def Accepted (fields : List Field) (o : Origin) (x : String × Value) : Prop :=
  ∀ f, fields.find? (Field.named x.1) = some f → f.check o x.2 = .ok ()

private theorem slot?_of_find (f : Field) (h : fields.find? (Field.named x.1) = some f) :
    slot? fields x = some (f.name, x.2) := by
  rw [slot?, h, Option.map_some]

/-- An unknown key has no slot. -/
theorem slot?_of_unknown (h : fields.find? (Field.named x.1) = none) : slot? fields x = none := by
  rw [slot?, h, Option.map_none]

/-- An unknown key is accepted with any value. -/
theorem accepted_of_unknown (h : fields.find? (Field.named x.1) = none) : Accepted fields o x := by
  intro f hf
  rw [h] at hf
  cases hf

/-- A known key is accepted exactly if its value passes the check. -/
theorem accepted_iff_of_find (f : Field) (h : fields.find? (Field.named x.1) = some f) :
    Accepted fields o x ↔ f.check o x.2 = .ok () := by
  constructor
  · exact fun hx => hx f h
  · intro hcheck g hg
    obtain rfl := Option.some.inj (h.symm.trans hg)
    exact hcheck

private theorem ofFields_seen_eq_ok_iff (hseen : (seen.map (·.1)).Nodup) :
    ofFields fields o seen given = .ok slots ↔ (∀ x ∈ given, Accepted fields o x) ∧
      (slots.map (·.1)).Nodup ∧ slots = seen ++ given.filterMap (slot? fields) := by
  induction given generalizing seen with
  | nil =>
    rw [ofFields, List.filterMap_nil, List.append_nil]
    constructor
    · intro h
      obtain rfl := Except.ok.inj h
      exact ⟨by simp, hseen, rfl⟩
    · rintro ⟨_, _, rfl⟩
      rfl
  | cons x given ih =>
    rw [List.forall_mem_cons]
    cases hfind : fields.find? (Field.named x.1) with
    | none =>
      have hnext : ofFields fields o seen (x :: given) = ofFields fields o seen given := by
        rw [ofFields, hfind]
      rw [hnext, List.filterMap_cons_none (slot?_of_unknown hfind),
        and_iff_right (accepted_of_unknown hfind)]
      exact ih hseen
    | some f =>
      rw [ofFields, hfind, List.filterMap_cons_some (slot?_of_find f hfind), accepted_iff_of_find f hfind]
      dsimp only
      by_cases htaken : seen.any (·.1 == f.name) = true
      · rw [if_pos htaken]
        refine iff_of_false nofun ?_
        rintro ⟨_, hnodup, rfl⟩
        obtain ⟨y, hy, hname⟩ := List.any_eq_true.mp htaken
        rw [List.map_append, List.nodup_append] at hnodup
        exact hnodup.2.2 y.1 (List.mem_map_of_mem hy) f.name (by simp) (by simpa using hname)
      · have hnew : ((seen ++ [(f.name, x.2)]).map (·.1)).Nodup := by
          rw [List.map_append, List.map_singleton, ← List.concat_eq_append]
          refine hseen.concat fun hmem => htaken ?_
          obtain ⟨y, hy, hname⟩ := List.mem_map.mp hmem
          exact List.any_eq_true.mpr ⟨y, hy, by simpa using hname⟩
        rw [if_neg htaken, bind_eq_ok]
        constructor
        · rintro ⟨_, hcheck, hrest⟩
          obtain ⟨hgiven, hnodup, hslots⟩ := (ih hnew).mp hrest
          exact ⟨⟨hcheck, hgiven⟩, hnodup, by simpa using hslots⟩
        · rintro ⟨⟨hcheck, hgiven⟩, hnodup, hslots⟩
          exact ⟨_, hcheck, (ih hnew).mpr ⟨hgiven, hnodup, by simpa using hslots⟩⟩

/-- The fields of an object are read if each that is known is accepted, and none is given twice. -/
theorem ofFields_eq_ok_iff : ofFields fields o [] given = .ok slots ↔
    (∀ x ∈ given, Accepted fields o x) ∧ (slots.map (·.1)).Nodup ∧
      slots = given.filterMap (slot? fields) :=
  ofFields_seen_eq_ok_iff List.nodup_nil

/-- A record without fields passes over all of an object. -/
theorem ofFields_nil (o : Origin) (seen given : Slots) : ofFields [] o seen given = .ok seen := by
  induction given with
  | nil => rfl
  | cons x given ih => rw [ofFields, List.find?_nil, ih]

/-- Where nothing has to be there, nothing is missing. -/
theorem ofValue_of_optional (h : ∀ f ∈ fields, f.absence ≠ .refused) (title : String) :
    ofValue title fields o (.object given) = ofFields fields o [] given := by
  have hmissing (slots : Slots) :
      fields.find? (fun f => f.absence = .refused && !slots.any (·.1 == f.name)) = none :=
    List.find?_eq_none.mpr fun f hf => by simp [h f hf]
  rw [ofValue]
  cases ofFields fields o [] given with
  | error e => rfl
  | ok slots => simp only [bind, Except.bind, hmissing]

private theorem ofFields_filter {key : String} (h : fields.find? (Field.named key) = none) :
    ofFields fields o seen (given.filter (·.1 != key)) = ofFields fields o seen given := by
  induction given generalizing seen with
  | nil => rfl
  | cons x given ih =>
    by_cases hkey : x.1 = key
    · rw [List.filter_cons_of_neg (by simp [hkey]), ih, ofFields, hkey, h]
    · rw [List.filter_cons_of_pos (by simp [hkey]), ofFields, ofFields]
      cases fields.find? (Field.named x.1) with
      | none => exact ih
      | some f => simp only [ih]

/-- Unknown fields make no difference. -/
theorem ofValue_filter {key : String} (h : fields.find? (Field.named key) = none) (title : String) :
    ofValue title fields o (.object (given.filter (·.1 != key))) =
      ofValue title fields o (.object given) := by
  rw [ofValue, ofFields_filter h, ofValue]

def Fits (fields : List Field) (o : Origin) (x : String × Value) : Prop :=
  ∃ f, fields.find? (Field.named x.1) = some f ∧ f.name = x.1 ∧ f.check o x.2 = .ok ()

/-- A field whose value is read fits the record. -/
theorem Fits.of_reads {α : Type} {name : String} {others : List String} {absence : Absence}
    {decode : Decoder α} {v : Value} {a : α}
    (hfind : fields.find? (Field.named name) = some ⟨name, others, absence, Field.accepts decode⟩)
    (h : decode.Reads v a) : Fits fields o (name, v) :=
  ⟨_, hfind, rfl, Field.accepts_of_reads h o⟩

/-- A field with a default is read if it is there. -/
theorem defaulted_of_reads {α : Type} {slots : Slots} {name : String} {decode : Decoder α} {v : Value}
    {a default : α} (hlookup : slots.lookup name = some v) (h : decode.Reads v a) :
    slots.defaulted name o decode default = .ok a := by
  rw [defaulted, hlookup]
  exact h o

private theorem Fits.slot? (h : Fits fields o x) : slot? fields x = some x := by
  obtain ⟨f, hfind, hname, _⟩ := h
  rw [slot?_of_find f hfind, hname]

private theorem Fits.accepted (h : Fits fields o x) : Accepted fields o x := by
  obtain ⟨f, hfind, _, hcheck⟩ := h
  exact (accepted_iff_of_find f hfind).mpr hcheck

private theorem ofFields_of_fits (hfits : ∀ x ∈ given, Fits fields o x) (hnodup : (given.map (·.1)).Nodup) :
    ofFields fields o [] given = .ok given := by
  have hslots : given.filterMap (Slots.slot? fields) = given := by
    rw [List.filterMap_congr fun x hx => (hfits x hx).slot?, List.filterMap_some]
  exact ofFields_eq_ok_iff.mpr ⟨fun x hx => (hfits x hx).accepted, hnodup, hslots.symm⟩

/-- An object that gives fields under their own names, each once and with a value it accepts, and
leaves out none that has to be there, is read as it is. -/
theorem ofValue_of_fits (title : String) (keys : List String) (hkeys : given.map (·.1) = keys)
    (hnodup : keys.Nodup) (hrefused : ∀ f ∈ fields, f.absence = .refused → f.name ∈ keys)
    (hfits : ∀ x ∈ given, Fits fields o x) : ofValue title fields o (.object given) = .ok given := by
  subst hkeys
  have hread : ofFields fields o [] given = .ok given := ofFields_of_fits hfits hnodup
  have hmissing : fields.find? (fun f => f.absence = .refused && !given.any (·.1 == f.name)) = none := by
    rw [List.find?_eq_none]
    intro f hf hmissing
    obtain ⟨habsence, hany⟩ := Bool.and_eq_true_iff.mp hmissing
    obtain ⟨x, hx, hname⟩ := List.mem_map.mp (hrefused f hf (by simpa using habsence))
    have hsome : given.any (·.1 == f.name) = true := List.any_eq_true.mpr ⟨x, hx, by simpa using hname⟩
    rw [hsome] at hany
    cases hany
  rw [ofValue, hread]
  simp only [bind, Except.bind, hmissing]

end Slots
end SchemaSynth.Json
