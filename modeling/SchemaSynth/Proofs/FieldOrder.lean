import SchemaSynth.Proofs.Records

/-! Values that differ in the order in which their objects have the fields, and decoders that make nothing of
that order. -/
namespace SchemaSynth.Json

mutual

/-- One value is the other but for the order of the fields of its objects. -/
inductive Value.Alike : Value → Value → Prop
  | null : Value.Alike .null .null
  | boolean (b : Bool) : Value.Alike (.boolean b) (.boolean b)
  | number (n : Number) : Value.Alike (.number n) (.number n)
  | text (s : String) : Value.Alike (.text s) (.text s)
  | list {items items' : List Value} (h : ItemsAlike items items') : Value.Alike (.list items) (.list items')
  | object {fields ordered fields' : List (String × Value)} (h : FieldsAlike fields ordered)
      (moved : ordered.Perm fields') : Value.Alike (.object fields) (.object fields')

inductive ItemsAlike : List Value → List Value → Prop
  | nil : ItemsAlike [] []
  | cons {v v' : Value} {items items' : List Value} (head : Value.Alike v v') (tail : ItemsAlike items items') :
      ItemsAlike (v :: items) (v' :: items')

inductive FieldsAlike : List (String × Value) → List (String × Value) → Prop
  | nil : FieldsAlike [] []
  | cons {v v' : Value} {fields fields' : List (String × Value)} (key : String) (head : Value.Alike v v')
      (tail : FieldsAlike fields fields') : FieldsAlike ((key, v) :: fields) ((key, v') :: fields')

end

mutual

/-- Every value is like itself. -/
theorem Value.alike_refl : (v : Value) → v.Alike v
  | .null => .null
  | .boolean b => .boolean b
  | .number n => .number n
  | .text s => .text s
  | .list items => .list (itemsAlike_refl items)
  | .object fields => .object (fieldsAlike_refl fields) (List.Perm.refl fields)

private theorem itemsAlike_refl : (items : List Value) → ItemsAlike items items
  | [] => .nil
  | v :: rest => .cons v.alike_refl (itemsAlike_refl rest)

private theorem fieldsAlike_refl : (fields : List (String × Value)) → FieldsAlike fields fields
  | [] => .nil
  | (key, v) :: rest => .cons key v.alike_refl (fieldsAlike_refl rest)

end

section Codes
variable {α : Type} {decode : Decoder α} {v w : Value} {a default : α}

/-- All values like the one that is written are read as `a`, wherever they come from. -/
def Decoder.Codes (decode : Decoder α) (w : Value) (a : α) : Prop :=
  ∀ v, v.Alike w → decode.Reads v a

namespace Decoder

/-- A string is read back. -/
theorem codes_text (s : String) : Codes text (.text s) s := by
  rintro _ ⟨⟩
  exact reads_text s

/-- An id that is a string is read back. -/
theorem codes_identifier (s : String) : Codes identifier (.text s) s := by
  rintro _ ⟨⟩
  exact reads_identifier s

/-- A truth value is read back. -/
theorem codes_boolean (b : Bool) : Codes boolean (.boolean b) b := by
  rintro _ ⟨⟩
  exact fun _ => rfl

/-- A count is read back. -/
theorem codes_count (n : Nat) : Codes count (.ofNat n) n := by
  rintro _ ⟨⟩ o
  rw [count, if_pos (Int.natCast_nonneg n), Int.toNat_natCast]

/-- A value other than null is read as without the default. -/
theorem Codes.orElse (h : Codes decode w a) (hw : w ≠ .null) : Codes (orElse default decode) w a := by
  intro v hv
  refine (h v hv).orElse ?_
  rintro rfl
  cases hv
  exact hw rfl

/-- A value other than null is read as one that is there. -/
theorem Codes.optional (h : Codes decode w a) (hw : w ≠ .null) : Codes (optional decode) w (some a) := by
  intro v hv o
  have hread := h v hv o
  cases hv with
  | null => exact absurd rfl hw
  | _ =>
    rw [Decoder.optional, hread]
    · rfl
    · simp

private theorem reads_items {β : Type} {write : β → Value} {item : Decoder β} {bs : List β} {items : List Value}
    (h : ∀ b ∈ bs, Codes item (write b) b) (hitems : ItemsAlike items (bs.map write)) :
    List.Forall₂ item.Reads items bs := by
  induction bs generalizing items with
  | nil =>
    cases hitems
    exact .nil
  | cons b bs ih =>
    obtain ⟨hb, hbs⟩ := List.forall_mem_cons.mp h
    cases hitems with
    | cons head tail => exact .cons (hb _ head) (ih hbs tail)

/-- A list is read back if its items are. -/
theorem codes_list {β : Type} {write : β → Value} {item : Decoder β} {bs : List β}
    (h : ∀ b ∈ bs, Codes item (write b) b) : Codes (list item) (.list (bs.map write)) bs := by
  rintro _ ⟨⟩
  exact reads_list (reads_items h ‹_›)

/-- A list of strings is read back. -/
theorem codes_texts (ss : List String) : Codes (list text) (.texts ss) ss :=
  codes_list fun s _ => codes_text s

end Decoder
end Codes

section Fields
variable {α : Type} {given written : Slots} {key : String} {v w : Value} {decode : Decoder α} {a default : α}
  {fields : List Field} {o : Origin}

/-- Every item has its like in a list that is alike. -/
theorem ItemsAlike.exists_mem : {items items' : List Value} → ItemsAlike items items' → v ∈ items →
    ∃ w ∈ items', v.Alike w
  | _, _, .cons head tail, hv => by
    rcases List.mem_cons.mp hv with rfl | hv
    · exact ⟨_, List.mem_cons_self, head⟩
    · obtain ⟨w, hw, hvw⟩ := tail.exists_mem hv
      exact ⟨w, List.mem_cons_of_mem _ hw, hvw⟩

private theorem FieldsAlike.map_fst : {given written : Slots} → FieldsAlike given written →
    given.map (·.1) = written.map (·.1)
  | _, _, .nil => rfl
  | _, _, .cons key _ tail => congrArg (key :: ·) tail.map_fst

/-- Every field has its like, under the same key, among fields that are alike. -/
theorem FieldsAlike.exists_mem {x : String × Value} : {given written : Slots} → FieldsAlike given written →
    x ∈ given → ∃ w, (x.1, w) ∈ written ∧ x.2.Alike w
  | _, _, .cons _ head tail, hx => by
    rcases List.mem_cons.mp hx with rfl | hx
    · exact ⟨_, List.mem_cons_self, head⟩
    · obtain ⟨w, hw, hxw⟩ := tail.exists_mem hx
      exact ⟨w, List.mem_cons_of_mem _ hw, hxw⟩

private theorem lookup_of_mem (hnodup : (given.map (·.1)).Nodup) (hmem : (key, v) ∈ given) :
    given.lookup key = some v := by
  induction given with
  | nil => cases hmem
  | cons x given ih =>
    obtain ⟨hx, hgiven⟩ := List.nodup_cons.mp hnodup
    rcases List.mem_cons.mp hmem with rfl | hmem
    · exact List.lookup_cons_self
    · have hne : key ≠ x.1 := by
        rintro rfl
        exact hx (List.mem_map.mpr ⟨_, hmem, rfl⟩)
      rw [List.lookup_cons, beq_false_of_ne hne, ih hgiven hmem]

private theorem mem_of_lookup_eq_some (h : given.lookup key = some v) : (key, v) ∈ given := by
  obtain ⟨before, after, rfl, _⟩ := List.lookup_eq_some_iff.mp h
  exact List.mem_append_right _ List.mem_cons_self

private theorem lookup_eq_some_iff_mem (hnodup : (given.map (·.1)).Nodup) :
    given.lookup key = some v ↔ (key, v) ∈ given :=
  ⟨mem_of_lookup_eq_some, lookup_of_mem hnodup⟩

/-- With keys given once, the order of fields does not matter to a lookup. -/
theorem lookup_eq_of_perm (h : given.Perm written) (hnodup : (given.map (·.1)).Nodup) :
    written.lookup key = given.lookup key := by
  have hnodup' : (written.map (·.1)).Nodup := (h.map (·.1)).nodup_iff.mp hnodup
  ext v
  rw [lookup_eq_some_iff_mem hnodup', lookup_eq_some_iff_mem hnodup, h.mem_iff]

/-- A field that was put is found. -/
theorem lookup_putField_self (key : String) (v : Value) (fields : List (String × Value)) :
    (putField key v fields).lookup key = some v := by
  fun_induction putField key v fields with
  | case1 => rw [List.lookup_cons_self]
  | case2 => rw [List.lookup_cons_self]
  | case3 => rw [List.lookup_cons_self]
  | case4 k w rest _ hne ih => rw [List.lookup_cons, beq_false_of_ne hne, ih]

/-- Putting a field leaves those of other keys. -/
theorem lookup_putField_of_ne {k : String} (h : key ≠ k) (v : Value) (fields : List (String × Value)) :
    (putField k v fields).lookup key = fields.lookup key := by
  fun_induction putField k v fields with
  | case1 => rw [List.lookup_cons, beq_false_of_ne h]
  | case2 => rw [List.lookup_cons, beq_false_of_ne h]
  | case3 => rw [List.lookup_cons, List.lookup_cons, beq_false_of_ne h]
  | case4 k w rest _ hne ih => rw [List.lookup_cons, List.lookup_cons, ih]

/-- Nothing but the field of the key is changed. -/
theorem filter_putField (key : String) (v : Value) (fields : List (String × Value)) :
    (putField key v fields).filter (·.1 != key) = fields.filter (·.1 != key) := by
  fun_induction putField key v fields with
  | case1 => simp
  | case2 => simp
  | case3 => simp
  | case4 k w rest _ _ ih => rw [List.filter_cons, List.filter_cons, ih]

/-- An object has the fields that were written, each of them once, in some order. -/
structure Rearranged (given written : Slots) : Prop where
  keys : (given.map (·.1)).Perm (written.map (·.1))
  nodup : (written.map (·.1)).Nodup
  values : ∀ x ∈ given, ∃ w, (x.1, w) ∈ written ∧ x.2.Alike w

/-- What is like an object with distinct keys is an object with the same fields in some order. -/
theorem Value.Alike.rearranged (h : v.Alike (.object written)) (hnodup : (written.map (·.1)).Nodup) :
    ∃ given, v = .object given ∧ Rearranged given written := by
  cases h with
  | @object given ordered _ h moved =>
    refine ⟨given, rfl, h.map_fst ▸ moved.map (·.1), hnodup, fun x hx => ?_⟩
    obtain ⟨w, hw, hxw⟩ := h.exists_mem hx
    exact ⟨w, moved.mem_iff.mp hw, hxw⟩

private theorem Value.Alike.singleton (h : v.Alike (.object [(key, w)])) :
    ∃ w', v = .object [(key, w')] ∧ w'.Alike w := by
  cases h with
  | object h moved =>
    obtain rfl := List.perm_singleton.mp moved
    cases h with
    | cons _ head tail =>
      cases tail
      exact ⟨_, rfl, head⟩

namespace Rearranged
variable (h : Rearranged given written)
include h

private theorem lookup (hlookup : written.lookup key = some w) :
    ∃ v, given.lookup key = some v ∧ v.Alike w := by
  have hnodup : (given.map (·.1)).Nodup := h.keys.nodup_iff.mpr h.nodup
  have hkey : key ∈ given.map (·.1) :=
    h.keys.mem_iff.mpr (List.mem_map_of_mem (mem_of_lookup_eq_some hlookup))
  obtain ⟨x, hx, rfl⟩ := List.mem_map.mp hkey
  obtain ⟨w', hw', halike⟩ := h.values x hx
  obtain rfl : w = w' := Option.some.inj (hlookup.symm.trans (lookup_of_mem h.nodup hw'))
  exact ⟨x.2, lookup_of_mem hnodup hx, halike⟩

private theorem lookup_none (hlookup : written.lookup key = none) : given.lookup key = none := by
  rw [List.lookup_eq_none_iff] at hlookup ⊢
  intro x hx
  obtain ⟨w, hw, _⟩ := h.values x hx
  exact hlookup (x.1, w) hw

private theorem filter (p : String → Bool) : Rearranged (given.filter (p ·.1)) (written.filter (p ·.1)) where
  keys := by simpa only [List.filter_map, Function.comp_def] using h.keys.filter p
  nodup := by simpa only [List.filter_map, Function.comp_def] using h.nodup.filter p
  values x hx := by
    obtain ⟨hx, hp⟩ := List.mem_filter.mp hx
    obtain ⟨w, hw, hxw⟩ := h.values x hx
    exact ⟨w, List.mem_filter.mpr ⟨hw, hp⟩, hxw⟩

/-- A required field that was written is read back. -/
theorem required (hlookup : written.lookup key = some w) (hcodes : decode.Codes w a) (o : Origin) :
    Slots.required given key o decode = .ok a := by
  obtain ⟨v, hv, halike⟩ := h.lookup hlookup
  rw [Slots.required, hv]
  exact hcodes v halike o

/-- A field with a default is read back if it was written. -/
theorem defaulted (hlookup : written.lookup key = some w) (hcodes : decode.Codes w a) (o : Origin)
    (default : α) :
    Slots.defaulted given key o decode default = .ok a := by
  obtain ⟨v, hv, halike⟩ := h.lookup hlookup
  rw [Slots.defaulted, hv]
  exact hcodes v halike o

/-- A field that was not written is its default. -/
theorem defaulted_none (hlookup : written.lookup key = none) (o : Origin) (default : α) :
    Slots.defaulted given key o decode default = .ok default := by
  rw [Slots.defaulted, h.lookup_none hlookup]

/-- A field that may be missing is read back if it was written. -/
theorem nullable (hlookup : written.lookup key = some w) (hcodes : decode.Codes w a) (hw : w ≠ .null)
    (o : Origin) : Slots.nullable given key o decode = .ok (some a) := by
  obtain ⟨v, hv, halike⟩ := h.lookup hlookup
  rw [Slots.nullable, hv]
  exact hcodes.optional hw v halike o

/-- A field that was not written is missing. -/
theorem nullable_none (hlookup : written.lookup key = none) (o : Origin) :
    Slots.nullable given key o decode = .ok none := by
  rw [Slots.nullable, h.lookup_none hlookup]

end Rearranged

/-- What is written of a record: each field under its own name, with a value that its decoder reads. -/
inductive Slots.Suits (fields : List Field) : Slots → Prop
  | nil : Suits fields []
  | cons {α : Type} {written : Slots} {name : String} {others : List String} {absence : Absence}
      {decode : Decoder α} {w : Value} {a : α}
      (own : fields.find? (Field.named name) = some ⟨name, others, absence, Field.accepts decode⟩)
      (codes : decode.Codes w a) (rest : Suits fields written) : Suits fields ((name, w) :: written)

private theorem Slots.Suits.fits (h : Suits fields written) (hmem : (key, w) ∈ written) (hv : v.Alike w) :
    Fits fields o (key, v) := by
  induction h with
  | nil => cases hmem
  | cons own codes rest ih =>
    rcases List.mem_cons.mp hmem with heq | hmem
    · obtain ⟨rfl, rfl⟩ := Prod.mk.inj heq
      exact .of_reads own (codes v hv)
    · exact ih hmem

/-- A record is read with all the fields it was written with, if none was left out that has to be there. -/
theorem Rearranged.ofValue (h : Rearranged given written) (hsuits : Slots.Suits fields written) (title : String)
    (keys : List String) (hkeys : written.map (·.1) = keys)
    (hrefused : ∀ f ∈ fields, f.absence = .refused → f.name ∈ keys) (o : Origin) :
    Slots.ofValue title fields o (.object given) = .ok given := by
  subst hkeys
  refine Slots.ofValue_of_fits title _ rfl (h.keys.nodup_iff.mpr h.nodup) ?_ fun x hx => ?_
  · exact fun f hf habsence => h.keys.mem_iff.mpr (hrefused f hf habsence)
  · obtain ⟨w, hw, hxw⟩ := h.values x hx
    exact hsuits.fits hw hxw

/-- What is like a record that was written is taken for one, with the fields that were written. -/
theorem Value.Alike.record (h : v.Alike (.object written)) (hsuits : Slots.Suits fields written)
    (title : String) (keys : List String) (hkeys : written.map (·.1) = keys) (hnodup : keys.Nodup)
    (hrefused : ∀ f ∈ fields, f.absence = .refused → f.name ∈ keys) (o : Origin) :
    ∃ given, Slots.ofValue title fields o v = .ok given ∧ Rearranged given written := by
  obtain ⟨given, rfl, hgiven⟩ := h.rearranged (hkeys ▸ hnodup)
  exact ⟨given, hgiven.ofValue hsuits title keys hkeys hrefused o, hgiven⟩

/-- No record is read from an object that leaves out a field that has to be there. -/
theorem Slots.ofValue_of_missing {f : Field} (hf : f ∈ fields) (hrefused : f.absence = .refused)
    (hmissing : ∀ y ∈ given, ∀ g, fields.find? (Field.named y.1) = some g → g.name ≠ f.name) (title : String) :
    ∃ e, ofValue title fields o (.object given) = .error e := by
  cases h : ofValue title fields o (.object given) with
  | error e => exact ⟨e, rfl⟩
  | ok slots =>
    obtain ⟨slots', hslots, h⟩ := bind_eq_ok.mp h
    split at h
    · cases h
    · rename_i hnone
      have hthere := List.find?_eq_none.mp hnone f hf
      simp only [hrefused, decide_true, Bool.true_and, Bool.not_eq_true', Bool.not_eq_false, List.any_eq_true,
        beq_iff_eq] at hthere
      obtain ⟨x, hx, hname⟩ := hthere
      obtain ⟨_, _, rfl⟩ := ofFields_eq_ok_iff.mp hslots
      obtain ⟨y, hy, hslot⟩ := List.mem_filterMap.mp hx
      obtain ⟨g, hfind, rfl⟩ := Option.map_eq_some_iff.mp hslot
      exact absurd hname (hmissing y hy g hfind)

/-- A variant that holds nothing is read by its name. -/
theorem Decoder.codes_bare {known : List (String × Payload α)} {name : String}
    (hknown : known.lookup name = some (.bare a)) : Codes (variant known) (.text name) a := by
  rintro _ ⟨⟩ o
  simp only [variant, findVariant, hknown, bind, Except.bind]

/-- A variant is read with what it holds. -/
theorem Decoder.codes_holding {known : List (String × Payload α)} {name : String}
    (hknown : known.lookup name = some (.holding decode)) (h : Codes decode w a) :
    Codes (variant known) (.object [(name, w)]) a := by
  intro v hv o
  obtain ⟨w', rfl, hw⟩ := hv.singleton
  simp only [variant, findVariant, hknown, bind, Except.bind]
  exact h w' hw o

/-- A tag that was written is taken off, whatever its place, and all other fields are left. -/
theorem splitTag_of_alike {τ : Type} {readTag : Value → Except DecodeError τ} {tag name : String} {t : τ}
    (h : v.Alike (.object written)) (hnodup : (written.map (·.1)).Nodup)
    (htag : written.lookup tag = some (.text name)) (hread : readTag (.text name) = .ok t) (title : String) :
    ∃ given, splitTag tag title readTag v = .ok (t, .object given) ∧
      Rearranged given (written.filter (·.1 != tag)) := by
  obtain ⟨given, rfl, hgiven⟩ := h.rearranged hnodup
  obtain ⟨w, hw, halike⟩ := hgiven.lookup htag
  cases halike
  refine ⟨given.filter (·.1 != tag), ?_, hgiven.filter (· != tag)⟩
  rw [splitTag, hw]
  simp only [hread, bind, Except.bind]
  rfl

end Fields
end SchemaSynth.Json
