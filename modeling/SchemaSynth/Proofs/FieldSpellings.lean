import SchemaSynth.Diagram.Codec
import SchemaSynth.Proofs.FieldOrder

/-! The ways to spell the fields of an element. The tag stands under either of two keys, multiplicities go
by two names each, and ids are texts, numbers, or not given. An element is decoded alike from all of them.
-/
namespace SchemaSynth
open Json

namespace Json
variable {given given' before after : Slots} {key other : String} {v : Value}

private theorem keys_nodup_iff : ((before ++ (key, v) :: after).map (·.1)).Nodup ↔
    (∀ x ∈ before ++ after, x.1 ≠ key) ∧ ((before ++ after).map (·.1)).Nodup := by
  rw [List.map_append, List.map_cons, List.nodup_middle, List.nodup_cons, ← List.map_append]
  simp only [List.mem_map, not_exists, not_and]

private theorem lookup_middle (hnew : ∀ x ∈ before ++ after, x.1 ≠ key) :
    (before ++ (key, v) :: after).lookup key = some v := by
  have hbefore : before.lookup key = none :=
    List.lookup_eq_none_iff.mpr fun x hx => by simpa using (hnew x (List.mem_append_left _ hx)).symm
  rw [List.lookup_append, hbefore, List.lookup_cons_self, Option.none_or]

private theorem lookup_middle_of_ne (h : other ≠ key) :
    (before ++ (key, v) :: after).lookup other = (before ++ after).lookup other := by
  rw [List.lookup_append, List.lookup_append, List.lookup_cons, beq_false_of_ne h]

private theorem lookup_of_new (hnew : ∀ x ∈ given, x.1 ≠ key) : given.lookup key = none :=
  List.lookup_eq_none_iff.mpr fun x hx => by simpa using (hnew x hx).symm

end Json

namespace DiagramElement
variable {α : Type} {fields : List Field} {given given' before after slots slots' : Slots}
  {key other name : String} {o : Origin} {v v' : Value}

def tagKeys : List String := ["type", "tipo"]

def identifierKeys : List String := ["id", "from", "to"]

def multiplicityKeys : List (String × String) :=
  [("multiplicityFrom", "multOrigen"), ("multiplicityTo", "multDestino")]

def Synonyms (key other : String) : Prop :=
  (key, other) ∈ multiplicityKeys ∨ (other, key) ∈ multiplicityKeys

/-- The fields of an element, and how they are once one of them is spelled in another way. -/
inductive Respelled : Slots → Slots → Prop
  | tag {before after : Slots} (v : Value) (free : ∀ x ∈ before ++ after, x.1 ≠ "tipo") :
      Respelled (before ++ ("type", v) :: after) (before ++ ("tipo", v) :: after)
  | multiplicity {before after : Slots} {key other : String} (v : Value) (names : Synonyms key other)
      (free : ∀ x ∈ before ++ after, x.1 ≠ other) :
      Respelled (before ++ (key, v) :: after) (before ++ (other, v) :: after)
  | number {before after : Slots} {key : String} (n : Number) (identifies : key ∈ identifierKeys) :
      Respelled (before ++ (key, .number n) :: after) (before ++ (key, .text n.toText) :: after)
  | emptied {before after : Slots} {key : String} (identifies : key ∈ identifierKeys) :
      Respelled (before ++ (key, .null) :: after) (before ++ (key, .text "") :: after)
  | leftOut {before after : Slots} {key : String} (identifies : key ∈ identifierKeys) :
      Respelled (before ++ (key, .null) :: after) (before ++ after)
  | moved {given given' : Slots} (perm : given.Perm given') : Respelled given given'

/-- Another spelling repeats no key. -/
theorem Respelled.nodup (h : Respelled given given') (hnodup : (given.map (·.1)).Nodup) :
    (given'.map (·.1)).Nodup := by
  cases h with
  | tag v free => exact keys_nodup_iff.mpr ⟨free, (keys_nodup_iff.mp hnodup).2⟩
  | multiplicity v names free => exact keys_nodup_iff.mpr ⟨free, (keys_nodup_iff.mp hnodup).2⟩
  | number n identifies => exact keys_nodup_iff.mpr (keys_nodup_iff.mp hnodup)
  | emptied identifies => exact keys_nodup_iff.mpr (keys_nodup_iff.mp hnodup)
  | leftOut identifies => exact (keys_nodup_iff.mp hnodup).2
  | moved perm => exact (perm.map (·.1)).nodup_iff.mp hnodup

section Tags

def tag? (given : Slots) : Option Value :=
  (given.lookup "type").or (given.lookup "tipo")

private theorem Synonyms.not_tag (h : Synonyms key other) : key ∉ tagKeys ∧ other ∉ tagKeys := by
  have hkeys : ∀ keys ∈ multiplicityKeys, keys.1 ∉ tagKeys ∧ keys.2 ∉ tagKeys := by decide
  rcases h with h | h
  · exact hkeys _ h
  · exact (hkeys _ h).symm

private theorem not_tag_of_identifies (h : key ∈ identifierKeys) : key ∉ tagKeys := by
  revert key
  decide

private theorem tag?_middle (h : key ∉ tagKeys) :
    tag? (before ++ (key, v) :: after) = tag? (before ++ after) := by
  have hkeys : "type" ≠ key ∧ "tipo" ≠ key := by simpa [tagKeys, eq_comm] using h
  rw [tag?, lookup_middle_of_ne hkeys.1, lookup_middle_of_ne hkeys.2, tag?]

/-- Another spelling leaves the tag. -/
theorem Respelled.tag? (h : Respelled given given') (hnodup : (given.map (·.1)).Nodup) :
    tag? given' = tag? given := by
  cases h with
  | tag v free =>
    have hnew := (keys_nodup_iff.mp hnodup).1
    rw [DiagramElement.tag?, lookup_middle_of_ne (by decide), lookup_of_new hnew, lookup_middle free,
      DiagramElement.tag?, lookup_middle hnew]
    rfl
  | multiplicity v names free => rw [tag?_middle names.not_tag.2, tag?_middle names.not_tag.1]
  | number n identifies =>
    have hkey := not_tag_of_identifies identifies
    rw [tag?_middle hkey, tag?_middle hkey]
  | emptied identifies =>
    have hkey := not_tag_of_identifies identifies
    rw [tag?_middle hkey, tag?_middle hkey]
  | leftOut identifies => rw [tag?_middle (not_tag_of_identifies identifies)]
  | moved perm =>
    rw [DiagramElement.tag?, lookup_eq_of_perm perm hnodup, lookup_eq_of_perm perm hnodup, DiagramElement.tag?]

end Tags

section Records

/-- A record whose fields an element may give in any spelling. -/
structure Lenient (fields : List Field) : Prop where
  tags : ∀ key ∈ tagKeys, fields.find? (Field.named key) = none
  multiplicities : ∀ keys ∈ multiplicityKeys,
    fields.find? (Field.named keys.1) = fields.find? (Field.named keys.2)
  identifiers : ∀ key ∈ identifierKeys, fields.find? (Field.named key) = none ∨
    fields.find? (Field.named key) = some (.defaulted key [] .identifier)
  single : ∀ f ∈ fields, f.name ∈ identifierKeys → f.others = []
  optional : ∀ f ∈ fields, f.absence ≠ .refused

structure Agree (slots slots' : Slots) : Prop where
  identifiers : ∀ key ∈ identifierKeys, ∀ o,
    slots'.defaulted key o .identifier "" = slots.defaulted key o .identifier ""
  others : ∀ key ∉ identifierKeys, slots'.lookup key = slots.lookup key

private theorem Agree.of_lookup (h : ∀ key, slots'.lookup key = slots.lookup key) : Agree slots slots' where
  identifiers key _ o := by rw [Slots.defaulted, h, Slots.defaulted]
  others key _ := h key

private theorem Agree.defaulted (h : Agree slots slots') (hkey : key ∉ identifierKeys) (o : Origin)
    (decode : Decoder α) (default : α) :
    slots'.defaulted key o decode default = slots.defaulted key o decode default := by
  rw [Slots.defaulted, h.others key hkey, Slots.defaulted]

inductive ReadAlike (fields : List Field) (o : Origin) (given given' : Slots) : Prop
  | read {slots slots' : Slots} (reads : Slots.ofFields fields o [] given = .ok slots)
      (reads' : Slots.ofFields fields o [] given' = .ok slots') (agree : Agree slots slots')
  | refused {e e' : DecodeError} (refuses : Slots.ofFields fields o [] given = .error e)
      (refuses' : Slots.ofFields fields o [] given' = .error e')

private theorem readAlike_of_slots (haccepted : (∀ x ∈ given', Slots.Accepted fields o x) ↔
      ∀ x ∈ given, Slots.Accepted fields o x)
    (hnodup : ((given'.filterMap (Slots.slot? fields)).map (·.1)).Nodup ↔
      ((given.filterMap (Slots.slot? fields)).map (·.1)).Nodup)
    (hagree : ((given.filterMap (Slots.slot? fields)).map (·.1)).Nodup →
      Agree (given.filterMap (Slots.slot? fields)) (given'.filterMap (Slots.slot? fields))) :
    ReadAlike fields o given given' := by
  have hreads : (∃ slots, Slots.ofFields fields o [] given' = .ok slots) ↔
      ∃ slots, Slots.ofFields fields o [] given = .ok slots := by
    simp only [Slots.ofFields_eq_ok_iff]
    constructor
    · rintro ⟨_, haccept, hslots, rfl⟩
      exact ⟨_, haccepted.mp haccept, hnodup.mp hslots, rfl⟩
    · rintro ⟨_, haccept, hslots, rfl⟩
      exact ⟨_, haccepted.mpr haccept, hnodup.mpr hslots, rfl⟩
  cases h : Slots.ofFields fields o [] given with
  | ok slots =>
    obtain ⟨slots', h'⟩ := hreads.mpr ⟨slots, h⟩
    obtain ⟨_, hslots, rfl⟩ := Slots.ofFields_eq_ok_iff.mp h
    obtain ⟨_, _, rfl⟩ := Slots.ofFields_eq_ok_iff.mp h'
    exact .read h h' (hagree hslots)
  | error e =>
    cases h' : Slots.ofFields fields o [] given' with
    | ok slots' =>
      obtain ⟨slots, hslots⟩ := hreads.mp ⟨slots', h'⟩
      cases h.symm.trans hslots
    | error e' => exact .refused h h'

private theorem readAlike_of_eq (haccepted : (∀ x ∈ given', Slots.Accepted fields o x) ↔
      ∀ x ∈ given, Slots.Accepted fields o x)
    (hslots : given'.filterMap (Slots.slot? fields) = given.filterMap (Slots.slot? fields)) :
    ReadAlike fields o given given' := by
  refine readAlike_of_slots haccepted (by rw [hslots]) fun _ => ?_
  rw [hslots]
  exact .of_lookup fun _ => rfl

private theorem readAlike_renamed (h : fields.find? (Field.named other) = fields.find? (Field.named key)) :
    ReadAlike fields o (before ++ (key, v) :: after) (before ++ (other, v) :: after) := by
  have hslot : Slots.slot? fields (other, v) = Slots.slot? fields (key, v) := by
    simp only [Slots.slot?, h]
  have haccepted : Slots.Accepted fields o (other, v) ↔ Slots.Accepted fields o (key, v) := by
    simp only [Slots.Accepted, h]
  refine readAlike_of_eq ?_ ?_
  · simp only [List.forall_mem_append, List.forall_mem_cons, haccepted]
  · simp only [List.filterMap_append, List.filterMap_cons, hslot]

private theorem Lenient.slots_new (hl : Lenient fields) (hkey : key ∈ identifierKeys)
    (hnew : ∀ x ∈ given, x.1 ≠ key) : ∀ x ∈ given.filterMap (Slots.slot? fields), x.1 ≠ key := by
  rintro x hx rfl
  obtain ⟨y, hy, hslot⟩ := List.mem_filterMap.mp hx
  obtain ⟨f, hfind, rfl⟩ := Option.map_eq_some_iff.mp hslot
  have hothers : f.others = [] := hl.single f (List.mem_of_find?_eq_some hfind) hkey
  have hname : f.name = y.1 := by simpa [Field.named, hothers] using List.find?_some hfind
  exact hnew y hy hname.symm

private theorem agree_of_identifier (hkey : key ∈ identifierKeys)
    (hothers : ∀ other, other ≠ key → slots'.lookup other = slots.lookup other)
    (hsame : ∀ o, slots'.defaulted key o .identifier "" = slots.defaulted key o .identifier "") :
    Agree slots slots' where
  identifiers other _ o := by
    by_cases h : other = key
    · exact h ▸ hsame o
    · rw [Slots.defaulted, hothers other h, Slots.defaulted]
  others other hother := hothers other fun h => hother (h ▸ hkey)

private theorem Lenient.accepted_of_reads (hl : Lenient fields) (hkey : key ∈ identifierKeys) {s : String}
    (hv : Decoder.identifier.Reads v s) (o : Origin) : Slots.Accepted fields o (key, v) := by
  rcases hl.identifiers key hkey with hfind | hfind
  · exact Slots.accepted_of_unknown hfind
  · exact (Slots.accepted_iff_of_find _ hfind).mpr (Field.accepts_of_reads hv o)

private theorem Lenient.slots_middle (hl : Lenient fields) (hkey : key ∈ identifierKeys)
    (before after : Slots) : (∀ v, (before ++ (key, v) :: after).filterMap (Slots.slot? fields) =
      (before ++ after).filterMap (Slots.slot? fields)) ∨
    ∀ v, (before ++ (key, v) :: after).filterMap (Slots.slot? fields) =
      before.filterMap (Slots.slot? fields) ++ (key, v) :: after.filterMap (Slots.slot? fields) := by
  rcases hl.identifiers key hkey with hfind | hfind
  · have hslot (v : Value) : Slots.slot? fields (key, v) = none := Slots.slot?_of_unknown hfind
    exact Or.inl fun v => by simp only [List.filterMap_append, List.filterMap_cons, hslot]
  · have hslot (v : Value) : Slots.slot? fields (key, v) = some (key, v) := by
      rw [Slots.slot?, hfind]
      rfl
    exact Or.inr fun v => by simp only [List.filterMap_append, List.filterMap_cons, hslot]

section Identifiers
variable (hl : Lenient fields) (hkey : key ∈ identifierKeys) (hnew : ∀ x ∈ before ++ after, x.1 ≠ key)
include hl hkey hnew

private theorem Lenient.readAlike_of_reads {s : String} (hv : Decoder.identifier.Reads v s)
    (hv' : Decoder.identifier.Reads v' s) :
    ReadAlike fields o (before ++ (key, v) :: after) (before ++ (key, v') :: after) := by
  have haccepted : (∀ x ∈ before ++ (key, v') :: after, Slots.Accepted fields o x) ↔
      ∀ x ∈ before ++ (key, v) :: after, Slots.Accepted fields o x := by
    simp only [List.forall_mem_append, List.forall_mem_cons, hl.accepted_of_reads hkey hv o,
      hl.accepted_of_reads hkey hv' o]
  rcases hl.slots_middle hkey before after with hslots | hslots
  · exact readAlike_of_eq haccepted (by rw [hslots, hslots])
  · have hnew' := hl.slots_new hkey hnew
    rw [List.filterMap_append] at hnew'
    refine readAlike_of_slots haccepted ?_ fun _ => ?_
    · rw [hslots, hslots, keys_nodup_iff, keys_nodup_iff]
    · rw [hslots, hslots]
      refine agree_of_identifier hkey (fun other h => ?_) fun o => ?_
      · rw [lookup_middle_of_ne h, lookup_middle_of_ne h]
      · rw [Slots.defaulted_of_reads (lookup_middle hnew') hv,
          Slots.defaulted_of_reads (lookup_middle hnew') hv']

private theorem Lenient.readAlike_leftOut (hv : Decoder.identifier.Reads v "") :
    ReadAlike fields o (before ++ (key, v) :: after) (before ++ after) := by
  have haccepted : (∀ x ∈ before ++ after, Slots.Accepted fields o x) ↔
      ∀ x ∈ before ++ (key, v) :: after, Slots.Accepted fields o x := by
    simp only [List.forall_mem_append, List.forall_mem_cons, hl.accepted_of_reads hkey hv o, true_and]
  rcases hl.slots_middle hkey before after with hslots | hslots
  · exact readAlike_of_eq haccepted (hslots v).symm
  · have hnew' := hl.slots_new hkey hnew
    rw [List.filterMap_append] at hnew'
    refine readAlike_of_slots haccepted ?_ fun _ => ?_
    · rw [hslots, List.filterMap_append, keys_nodup_iff, and_iff_right hnew']
    · rw [hslots, List.filterMap_append]
      refine agree_of_identifier hkey (fun other h => (lookup_middle_of_ne h).symm) fun o => ?_
      rw [Slots.defaulted_of_reads (lookup_middle hnew') hv, Slots.defaulted, lookup_of_new hnew']

end Identifiers

private theorem readAlike_of_perm (perm : given.Perm given') : ReadAlike fields o given given' := by
  have hslots := perm.filterMap (Slots.slot? fields)
  refine readAlike_of_slots ?_ (hslots.map (·.1)).nodup_iff.symm fun hnodup => ?_
  · exact forall_congr' fun x => by rw [perm.mem_iff]
  · exact .of_lookup fun key => lookup_eq_of_perm hslots hnodup

private theorem Lenient.find_synonyms (hl : Lenient fields) (h : Synonyms key other) :
    fields.find? (Field.named other) = fields.find? (Field.named key) := by
  rcases h with h | h
  · exact (hl.multiplicities _ h).symm
  · exact hl.multiplicities _ h

private theorem Lenient.readAlike (hl : Lenient fields) (h : Respelled given given')
    (hnodup : (given.map (·.1)).Nodup) (o : Origin) : ReadAlike fields o given given' := by
  cases h with
  | tag v free =>
    exact readAlike_renamed ((hl.tags "tipo" (by decide)).trans (hl.tags "type" (by decide)).symm)
  | multiplicity v names free => exact readAlike_renamed (hl.find_synonyms names)
  | number n identifies =>
    exact hl.readAlike_of_reads identifies (keys_nodup_iff.mp hnodup).1 (fun _ => rfl) (fun _ => rfl)
  | emptied identifies =>
    exact hl.readAlike_of_reads identifies (keys_nodup_iff.mp hnodup).1 (fun _ => rfl) (fun _ => rfl)
  | leftOut identifies =>
    exact hl.readAlike_leftOut identifies (keys_nodup_iff.mp hnodup).1 fun _ => rfl
  | moved perm => exact readAlike_of_perm perm

end Records

section Decoders

def Tolerates (decode : Decoder α) : Prop :=
  ∀ {given given' : Slots} (o : Origin), Respelled given given' → (given.map (·.1)).Nodup →
    (decode o (.object given')).toOption = (decode o (.object given)).toOption

private theorem tolerates_record (hl : Lenient fields) (title : String)
    {read : Origin → Slots → Except DecodeError α}
    (hread : ∀ o slots slots', Agree slots slots' → read o slots' = read o slots) :
    Tolerates fun o v => Slots.ofValue title fields o v >>= read o := by
  intro given given' o h hnodup
  dsimp only
  rw [Slots.ofValue_of_optional hl.optional, Slots.ofValue_of_optional hl.optional]
  cases hl.readAlike h hnodup o with
  | read reads reads' agree =>
    rw [reads, reads']
    exact congrArg Except.toOption (hread o _ _ agree)
  | refused refuses refuses' =>
    rw [refuses, refuses']
    rfl

private theorem lenient_class : Lenient ClassNode.fields where
  tags := by simp [tagKeys, ClassNode.fields, Field.named, Field.defaulted]
  multiplicities := by simp [multiplicityKeys, ClassNode.fields, Field.named, Field.defaulted]
  identifiers := by simp [identifierKeys, ClassNode.fields, Field.named, Field.defaulted]
  single := by simp [identifierKeys, ClassNode.fields, Field.defaulted]
  optional := by simp [ClassNode.fields, Field.defaulted]

private theorem lenient_edge : Lenient EdgeElement.fields where
  tags := by simp [tagKeys, EdgeElement.fields, Field.named, Field.defaulted]
  multiplicities := by simp [multiplicityKeys, EdgeElement.fields, Field.named, Field.defaulted]
  identifiers := by simp [identifierKeys, EdgeElement.fields, Field.named, Field.defaulted]
  single := by simp [identifierKeys, EdgeElement.fields, Field.defaulted]
  optional := by simp [EdgeElement.fields, Field.defaulted]

private theorem tolerates_class : Tolerates ClassNode.decode := by
  refine tolerates_record lenient_class "struct ClassNode" fun o slots slots' h => ?_
  rw [h.identifiers "id" (by decide), h.defaulted (by decide), h.defaulted (by decide), h.defaulted (by decide)]

private theorem tolerates_edge : Tolerates EdgeElement.decode := by
  refine tolerates_record lenient_edge "struct EdgeElement" fun o slots slots' h => ?_
  rw [h.identifiers "from" (by decide), h.identifiers "to" (by decide), h.defaulted (by decide),
    h.defaulted (by decide), h.defaulted (by decide)]

/-- Whatever the tag says, the key that it stands under is none of the record's. -/
theorem decodeTagged_filter (hkey : key ∈ tagKeys) (tag : String) :
    decodeTagged tag (.object (given.filter (·.1 != key))) = decodeTagged tag (.object given) := by
  have hclass : ClassNode.decode .element (.object (given.filter (·.1 != key))) =
      ClassNode.decode .element (.object given) := by
    rw [ClassNode.decode, Slots.ofValue_filter (lenient_class.tags key hkey), ClassNode.decode]
  have hedge : EdgeElement.decode .element (.object (given.filter (·.1 != key))) =
      EdgeElement.decode .element (.object given) := by
    rw [EdgeElement.decode, Slots.ofValue_filter (lenient_edge.tags key hkey), EdgeElement.decode]
  simp only [decodeTagged, hclass, hedge, Slots.ofValue_filter List.find?_nil]

/-- Under a tag another spelling is read alike. -/
theorem decodeTagged_respelled (h : Respelled given given') (hnodup : (given.map (·.1)).Nodup)
    (tag : String) :
    (decodeTagged tag (.object given')).toOption = (decodeTagged tag (.object given)).toOption := by
  have hmap {β : Type} {x y : Except DecodeError β} (f : β → DiagramElement)
      (hxy : y.toOption = x.toOption) : (y.map f).toOption = (x.map f).toOption := by
    cases x <;> cases y <;> simp_all [Except.toOption, Except.map]
  unfold decodeTagged
  split
  · exact hmap _ (tolerates_class .element h hnodup)
  · split
    · exact hmap _ (tolerates_edge .element h hnodup)
    · rw [Slots.ofValue_of_optional (by simp), Slots.ofValue_of_optional (by simp), Slots.ofFields_nil,
        Slots.ofFields_nil]

/-- A tagged element is read by its tag, from its other fields. -/
theorem toOption_decode {t : Value} (h : given.lookup "type" = some t) :
    (DiagramElement.decode o (.object given)).toOption = (tagName t).toOption.bind fun tag =>
      (decodeTagged tag (.object (given.filter (·.1 != "type")))).toOption := by
  rw [DiagramElement.decode, splitTag, h]
  dsimp only
  cases tagName t <;> rfl

end Decoders
end DiagramElement

end SchemaSynth
