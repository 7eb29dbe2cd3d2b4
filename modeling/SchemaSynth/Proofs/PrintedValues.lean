import SchemaSynth.Proofs.PrintedScalars
import Mathlib.Data.List.Forall2

/-! What is printed of a value, on one line or indented, is read as that value. -/
namespace SchemaSynth.Json
variable {depth fuel : Nat} {c c' : Cursor} {cs tail gap gap₁ gap₂ gap₃ : List Char} {x closing : Char}
  {texts : List (List Char)} {v : Value}

/-- A text that is read as a value, whatever follows that does not go on with a number. -/
structure ReadsBack (depth : Nat) (cs : List Char) (v : Value) : Prop where
  starts : ∃ x xs, cs = x :: xs ∧ Cursor.isGap x = false ∧ x ≠ ']'
  reads : ∀ c tail fuel, c.skipBlanks.rest = cs ++ tail → EndsNumber tail → 2 * c.rest.length < fuel →
    ∃ c', readValue .keep fuel depth c = .ok (v, c') ∧ c'.rest = tail

section Scalars

private theorem ReadsBack.of_word {a : Value} {x : Char} {word : List Char} (hx : Cursor.isGap x = false)
    (hx' : x ≠ ']') (hread : ∀ c cs fuel, c.skipBlanks.rest = x :: cs →
      readValue .keep (fuel + 1) depth c = readWord a word c.skipBlanks.next) :
    ReadsBack depth (x :: word) a := by
  refine ⟨⟨x, word, rfl, hx, hx'⟩, fun c tail fuel hc _ hfuel => ?_⟩
  obtain ⟨fuel, rfl⟩ := Nat.exists_eq_add_one.mpr (Nat.lt_of_le_of_lt (Nat.zero_le _) hfuel)
  rw [hread c _ fuel hc]
  exact readWord_of_rest a word (Cursor.rest_next hc)

private theorem readsBack_null (depth : Nat) : ReadsBack depth "null".toList .null := by
  have hword : "null".toList = ['n', 'u', 'l', 'l'] := rfl
  rw [hword]
  refine .of_word rfl (by decide) fun c cs fuel hc => ?_
  rw [readValue]
  simp only [hc]

private theorem readsBack_boolean (depth : Nat) (b : Bool) :
    ReadsBack depth (if b then "true" else "false").toList (.boolean b) := by
  cases b with
  | false =>
    have hword : "false".toList = ['f', 'a', 'l', 's', 'e'] := rfl
    rw [if_neg Bool.false_ne_true, hword]
    refine .of_word rfl (by decide) fun c cs fuel hc => ?_
    rw [readValue]
    simp only [hc]
  | true =>
    have hword : "true".toList = ['t', 'r', 'u', 'e'] := rfl
    rw [if_pos rfl, hword]
    refine .of_word rfl (by decide) fun c cs fuel hc => ?_
    rw [readValue]
    simp only [hc]

private theorem toList_quote (s : String) : (quote s).toList = '"' :: (s.toList.flatMap escape ++ ['"']) := by
  simp [quote]

private theorem readsBack_text (depth : Nat) (s : String) : ReadsBack depth (quote s).toList (.text s) := by
  rw [toList_quote]
  refine ⟨⟨_, _, rfl, rfl, by decide⟩, fun c tail fuel hc _ hfuel => ?_⟩
  obtain ⟨fuel, rfl⟩ := Nat.exists_eq_add_one.mpr (Nat.lt_of_le_of_lt (Nat.zero_le _) hfuel)
  have hrest : c.skipBlanks.rest = '"' :: (s.toList.flatMap escape ++ '"' :: tail) := by simpa using hc
  have hlength : s.toList.length < fuel := by
    have hblanks := c.length_skipBlanks_le
    have hescaped := length_le_flatMap_escape s.toList
    rw [hrest, List.length_cons, List.length_append] at hblanks
    omega
  obtain ⟨c', hread, htail⟩ := readText_of_quoted (Cursor.rest_next hrest) hlength []
  refine ⟨c', ?_, htail⟩
  rw [readValue]
  simp only [hrest, hread]
  simp [Except.map]

private theorem readsBack_ofNat (depth : Nat) {n : Nat} (hn : n < Word.limit 64) :
    ReadsBack depth (Number.integer n).toText.toList (.ofNat n) := by
  have htext : (Number.integer n).toText.toList = Nat.toDigits 10 n := by
    rw [Number.toText]
    exact Nat.toList_repr
  rw [htext]
  obtain ⟨d, ds, hdigits⟩ := List.exists_cons_of_ne_nil (Nat.toDigits_ne_nil (n := n) (b := 10))
  have hd : isDigit d = true := isDigit_of_mem_toDigits (hdigits ▸ List.mem_cons_self)
  have hopen : d ≠ ']' := by
    rintro rfl
    exact absurd hd (by decide)
  refine ⟨⟨d, ds, hdigits, isGap_of_isDigit hd, hopen⟩, fun c tail fuel hc htail hfuel => ?_⟩
  obtain ⟨fuel, rfl⟩ := Nat.exists_eq_add_one.mpr (Nat.lt_of_le_of_lt (Nat.zero_le _) hfuel)
  obtain ⟨c', hread, hrest⟩ := readNumber_of_rest hn hc htail
  refine ⟨c', ?_, hrest⟩
  have hrest : c.skipBlanks.rest = d :: (ds ++ tail) := by rw [hc, hdigits, List.cons_append]
  have hother {x : Char} {xs : List Char} (h : c.skipBlanks.rest = x :: xs) : isDigit x = true := by
    rw [hrest] at h
    exact (List.cons.inj h).1 ▸ hd
  rw [readValue]
  dsimp only
  split
  case h_9 x _ _ _ _ _ _ _ _ heq =>
    have hx : ('0' ≤ x && x ≤ '9') = true := hother heq
    rw [if_pos hx, hread]
    rfl
  case h_1 heq => rw [hrest] at heq; cases heq
  all_goals exact absurd (hother ‹_›) (by decide)

end Scalars

section Blanks

private theorem blank_nil : Blank [] :=
  nofun

private theorem Blank.append (h : Blank gap₁) (h' : Blank gap₂) : Blank (gap₁ ++ gap₂) :=
  fun x hx => (List.mem_append.mp hx).elim (h x) (h' x)

private theorem stops_of_isGap (hx : Cursor.isGap x = true) : Stops x := by
  simp only [Cursor.isGap, Bool.or_eq_true, decide_eq_true_eq] at hx
  rcases hx with ((rfl | rfl) | rfl) | rfl <;> exact ⟨rfl, by decide, by decide, by decide⟩

private theorem Blank.endsNumber (hgap : Blank gap) : EndsNumber gap :=
  fun x hx => stops_of_isGap (hgap x (List.mem_of_mem_head? hx))

private theorem endsNumber_of_blank (hgap : Blank gap) (hx : Stops x) : EndsNumber (gap ++ x :: tail) := by
  cases gap with
  | nil =>
    rintro _ ⟨⟩
    exact hx
  | cons y gap =>
    rintro _ ⟨⟩
    exact stops_of_isGap (hgap y List.mem_cons_self)

private theorem Cursor.length_lt_of_skipBlanks (hc : c.skipBlanks.rest = x :: cs ++ tail) :
    tail.length < c.rest.length := by
  have hblanks := c.length_skipBlanks_le
  rw [hc, List.length_append, List.length_cons] at hblanks
  omega

private theorem intercalate_cons (sep t : List Char) (texts : List (List Char)) :
    sep.intercalate (t :: texts) = t ++ texts.flatMap (sep ++ ·) := by
  induction texts generalizing t with
  | nil => simp [List.intercalate]
  | cons t' texts ih =>
    rw [List.intercalate_cons_cons, ih, List.flatMap_cons, List.append_assoc, List.append_assoc]

end Blanks

section Parts
variable {β : Type} {loop : Nat → Bool → List β → Cursor → Except TextError (Value × Cursor)}
  {whole : List β → Value} {IsPart : List Char → β → Prop} {parts : List β} {first : Bool}

/-- A loop over the parts between two brackets, behind commas. It ends at the closing bracket, and in front of
that it reads one part. -/
structure ReadsParts (loop : Nat → Bool → List β → Cursor → Except TextError (Value × Cursor))
    (whole : List β → Value) (closing : Char) (IsPart : List Char → β → Prop) : Prop where
  stops : Stops closing
  noGap : Cursor.isGap closing = false
  ne_comma : ',' ≠ closing
  starts : ∀ {t b}, IsPart t b → ∃ x xs, t = x :: xs ∧ Cursor.isGap x = false ∧ x ≠ closing
  closed : ∀ {c : Cursor} {tail : List Char} {fuel : Nat} {first : Bool} (done : List β),
    c.skipBlanks.rest = closing :: tail →
    loop (fuel + 1) first done c = .ok (whole done.reverse, c.skipBlanks.next)
  part : ∀ {t b x xs tail fuel first} {c : Cursor} (done : List β), IsPart t b →
    c.skipBlanks.rest = x :: xs → x ≠ closing → (first = true ∨ x = ',') → (c.entry first).rest = t ++ tail →
    EndsNumber tail → 2 * c.rest.length < fuel →
    ∃ c', loop (fuel + 1) first done c = loop fuel false (b :: done) c' ∧ c'.rest = tail

namespace ReadsParts

private theorem skipBlanks {t : List Char} {b : β} (h : ReadsParts loop whole closing IsPart)
    (hpart : IsPart t b)
    (hgap : Blank gap) (hc : c.rest = gap ++ (t ++ tail)) : c.skipBlanks.rest = t ++ tail := by
  obtain ⟨x, xs, rfl, hx, _⟩ := h.starts hpart
  exact Cursor.rest_skipBlanks_cons hc hgap hx

private theorem endsNumber (h : ReadsParts loop whole closing IsPart) (texts : List (List Char))
    (gap₂ tail : List Char) (hgap₃ : Blank gap₃) :
    EndsNumber (texts.flatMap (',' :: gap₂ ++ ·) ++ (gap₃ ++ closing :: tail)) := by
  cases texts with
  | nil => exact endsNumber_of_blank hgap₃ h.stops
  | cons t texts => exact endsNumber_of_blank blank_nil ⟨rfl, by decide, by decide, by decide⟩

private theorem later (h : ReadsParts loop whole closing IsPart) (hparts : List.Forall₂ IsPart texts parts)
    (hgap₂ : Blank gap₂) (hgap₃ : Blank gap₃)
    (hc : c.rest = texts.flatMap (',' :: gap₂ ++ ·) ++ (gap₃ ++ closing :: tail))
    (hfuel : 2 * c.rest.length + 1 < fuel) (done : List β) :
    ∃ c', loop fuel false done c = .ok (whole (done.reverse ++ parts), c') ∧ c'.rest = tail := by
  induction hparts generalizing c done fuel with
  | nil =>
    obtain ⟨fuel, rfl⟩ := Nat.exists_eq_add_one.mpr (Nat.lt_of_le_of_lt (Nat.zero_le _) hfuel)
    have hclosing := Cursor.rest_skipBlanks_cons hc hgap₃ h.noGap
    exact ⟨_, by rw [h.closed done hclosing, List.append_nil], Cursor.rest_next hclosing⟩
  | @cons t b texts parts hhead htail ih =>
    obtain ⟨fuel, rfl⟩ := Nat.exists_eq_add_one.mpr (Nat.lt_of_le_of_lt (Nat.zero_le _) hfuel)
    have hends := h.endsNumber texts gap₂ tail hgap₃
    have hstart : c.skipBlanks.rest = ',' :: (gap₂ ++ t) ++ (texts.flatMap (',' :: gap₂ ++ ·) ++
        (gap₃ ++ closing :: tail)) := by
      refine Cursor.rest_skipBlanks_cons ?_ blank_nil rfl
      simpa using hc
    have hnext := (Cursor.rest_next hstart).trans (List.append_assoc gap₂ t _)
    have hentry : (c.entry false).rest =
        t ++ (texts.flatMap (',' :: gap₂ ++ ·) ++ (gap₃ ++ closing :: tail)) :=
      h.skipBlanks hhead hgap₂ hnext
    have hfuel' : 2 * c.rest.length < fuel := by omega
    obtain ⟨c', hstep, hrest⟩ := h.part done hhead hstart h.ne_comma (Or.inr rfl) hentry hends hfuel'
    have hlength := hrest ▸ Cursor.length_lt_of_skipBlanks hstart
    have hfuel'' : 2 * c'.rest.length + 1 < fuel := by omega
    obtain ⟨c'', hread, hrest'⟩ := ih hrest hfuel'' (b :: done)
    refine ⟨c'', ?_, hrest'⟩
    rw [hstep, hread]
    simp

private theorem all (h : ReadsParts loop whole closing IsPart) (hparts : List.Forall₂ IsPart texts parts)
    (hgap₁ : Blank gap₁) (hgap₂ : Blank gap₂) (hgap₃ : Blank gap₃)
    (hc : c.rest = gap₁ ++ ((',' :: gap₂).intercalate texts ++ (gap₃ ++ closing :: tail)))
    (hfuel : 2 * c.rest.length + 1 < fuel) :
    ∃ c', loop fuel true [] c = .ok (whole parts, c') ∧ c'.rest = tail := by
  obtain ⟨fuel, rfl⟩ := Nat.exists_eq_add_one.mpr (Nat.lt_of_le_of_lt (Nat.zero_le _) hfuel)
  cases hparts with
  | nil =>
    have hclosing : c.skipBlanks.rest = closing :: tail :=
      Cursor.rest_skipBlanks_cons (by simpa using hc) (hgap₁.append hgap₃) h.noGap
    exact ⟨_, h.closed [] hclosing, Cursor.rest_next hclosing⟩
  | @cons t b texts parts hhead htail =>
    rw [intercalate_cons, List.append_assoc t] at hc
    have hends := h.endsNumber texts gap₂ tail hgap₃
    have hentry := h.skipBlanks hhead hgap₁ hc
    obtain ⟨x, xs, rfl, _, hx⟩ := h.starts hhead
    have hfuel' : 2 * c.rest.length < fuel := by omega
    obtain ⟨c', hstep, hrest⟩ := h.part [] hhead hentry hx (Or.inl rfl) hentry hends hfuel'
    have hlength := hrest ▸ Cursor.length_lt_of_skipBlanks hentry
    have hfuel'' : 2 * c'.rest.length + 1 < fuel := by omega
    obtain ⟨c'', hread, hrest'⟩ := h.later htail hgap₂ hgap₃ hrest hfuel'' [b]
    exact ⟨c'', hstep.trans hread, hrest'⟩

private theorem readsBack {opening : Char} (h : ReadsParts loop whole closing IsPart)
    (hparts : List.Forall₂ IsPart texts parts) (hgap₁ : Blank gap₁) (hgap₂ : Blank gap₂)
    (hgap₃ : Blank gap₃) (hopening : Cursor.isGap opening = false) (hitem : opening ≠ ']')
    (henter : ∀ c tail fuel, c.skipBlanks.rest = opening :: tail →
      readValue .keep (fuel + 1) depth c = loop fuel true [] c.skipBlanks.next) :
    ReadsBack depth (opening :: (gap₁ ++ ((',' :: gap₂).intercalate texts ++ (gap₃ ++ [closing]))))
      (whole parts) := by
  refine ⟨⟨_, _, rfl, hopening, hitem⟩, fun c tail fuel hc _ hfuel => ?_⟩
  obtain ⟨fuel, rfl⟩ := Nat.exists_eq_add_one.mpr (Nat.lt_of_le_of_lt (Nat.zero_le _) hfuel)
  have hlength := Cursor.length_next_skipBlanks_lt hc
  have hnext : c.skipBlanks.next.rest =
      gap₁ ++ ((',' :: gap₂).intercalate texts ++ (gap₃ ++ closing :: tail)) := by
    simpa using Cursor.rest_next hc
  obtain ⟨c', hread, hrest⟩ := h.all hparts hgap₁ hgap₂ hgap₃ hnext (show _ < fuel by omega)
  exact ⟨c', (henter c _ fuel hc).trans hread, hrest⟩

end ReadsParts
end Parts

section Lists
variable {items : List Value}

private theorem readsParts_items (depth : Nat) :
    ReadsParts (readItems .keep · depth) .list ']' (ReadsBack depth) where
  stops := ⟨rfl, by decide, by decide, by decide⟩
  noGap := rfl
  ne_comma := by decide
  starts h := h.starts
  closed done hc := by
    rw [readItems]
    simp only [hc]
  part {t v x xs tail fuel first c} done h hstart hx hcomma hentry htail hfuel := by
    have hlength := c.length_entry_le first
    obtain ⟨y, ys, rfl, hgap, hy⟩ := h.starts
    have hblanks := Cursor.rest_skipBlanks_cons hentry blank_nil hgap
    obtain ⟨c', hread, hrest⟩ := h.reads (c.entry first) tail fuel hblanks htail (by omega)
    refine ⟨c', ?_, hrest⟩
    have hseparated : ¬ (!first && x != ',') = true := by
      rcases hcomma with rfl | rfl <;> simp
    have hopen : ((c.entry first).rest.head? == some ']') = false := by
      rw [hentry]
      simpa using hy
    rw [readItems]
    simp only [hstart]
    rw [if_neg hseparated, ← Cursor.entry, hopen, Bool.and_false, if_neg Bool.false_ne_true, hread]
    rfl

private theorem readsBack_list (h : List.Forall₂ (ReadsBack depth) texts items) (hdepth : 0 < depth)
    (hgap₁ : Blank gap₁) (hgap₂ : Blank gap₂) (hgap₃ : Blank gap₃) :
    ReadsBack (depth + 1) ('[' :: (gap₁ ++ ((',' :: gap₂).intercalate texts ++ (gap₃ ++ [']']))))
      (.list items) := by
  refine (readsParts_items depth).readsBack h hgap₁ hgap₂ hgap₃ rfl (by decide) fun c tail fuel hc => ?_
  have hroom : decide (depth + 1 ≤ 1) = false := decide_eq_false (by omega)
  rw [readValue]
  simp only [hc]
  rw [hroom, Bool.and_false, if_neg Bool.false_ne_true]
  rfl

end Lists

section Objects
variable {fields : List (String × Value)} {key : String}

def FieldReadsBack (depth : Nat) (gap cs : List Char) (field : String × Value) : Prop :=
  ∃ t, cs = (quote field.1).toList ++ ':' :: (gap ++ t) ∧ ReadsBack depth t field.2

private theorem readKey_of_quoted (hc : c.rest = (quote key).toList ++ cs) (hfuel : c.rest.length ≤ fuel)
    (first : Bool) : ∃ c', readKey .keep fuel first c = .ok (key, c') ∧ c'.rest = cs := by
  have hrest : c.rest = '"' :: (key.toList.flatMap escape ++ '"' :: cs) := by
    rw [hc, toList_quote]
    simp
  have hlength : key.toList.length < fuel := by
    have hescaped := length_le_flatMap_escape key.toList
    rw [hrest, List.length_cons, List.length_append] at hfuel
    omega
  obtain ⟨c', hread, htail⟩ := readText_of_quoted (Cursor.rest_next hrest) hlength []
  refine ⟨c', ?_, htail⟩
  rw [readKey]
  simp only [hrest, hread]
  simp

private theorem readColon_of_rest (hc : c.rest = ':' :: cs) : ∃ c', readColon c = .ok c' ∧ c'.rest = cs := by
  have hblanks := Cursor.rest_skipBlanks_cons hc blank_nil rfl
  refine ⟨c.skipBlanks.next, ?_, Cursor.rest_next hblanks⟩
  rw [readColon]
  simp only [hblanks]

private theorem readsParts_fields (depth : Nat) (hgap : Blank gap) :
    ReadsParts (readFields .keep · depth) .object '\x7d' (FieldReadsBack depth gap) where
  stops := ⟨rfl, by decide, by decide, by decide⟩
  noGap := rfl
  ne_comma := by decide
  starts h := by
    obtain ⟨t, rfl, _⟩ := h
    exact ⟨'"', _, by rw [toList_quote, List.cons_append], rfl, by decide⟩
  closed done hc := by
    rw [readFields]
    simp only [hc]
  part {t v x xs tail fuel first c} done h hstart hx hcomma hentry htail hfuel := by
    obtain ⟨t, rfl, h⟩ := h
    have hlength := c.length_entry_le first
    rw [List.append_assoc] at hentry
    obtain ⟨c₁, hkey, hrest₁⟩ := readKey_of_quoted hentry (show _ ≤ fuel by omega) first
    obtain ⟨c₂, hcolon, hrest₂⟩ := readColon_of_rest hrest₁
    obtain ⟨y, ys, rfl, hy, _⟩ := h.starts
    have hblanks := Cursor.rest_skipBlanks_cons (hrest₂.trans (List.append_assoc gap _ tail)) hgap hy
    have hshorter : c₂.rest.length ≤ (c.entry first).rest.length := by
      rw [hentry, hrest₂]
      simp only [List.append_eq, List.length_append, List.length_cons]
      omega
    obtain ⟨c₃, hread, hrest₃⟩ := h.reads c₂ tail fuel hblanks htail (by omega)
    refine ⟨c₃, ?_, hrest₃⟩
    have hseparated : ¬ (!first && x != ',') = true := by
      rcases hcomma with rfl | rfl <;> simp
    rw [readFields]
    simp only [hstart]
    rw [if_neg hseparated, ← Cursor.entry]
    simp only [hkey, hcolon, hread, bind, Except.bind]

private theorem readsBack_object (h : List.Forall₂ (FieldReadsBack depth gap) texts fields) (hdepth : 0 < depth)
    (hgap : Blank gap) (hgap₁ : Blank gap₁) (hgap₂ : Blank gap₂) (hgap₃ : Blank gap₃) :
    ReadsBack (depth + 1) ('\x7b' :: (gap₁ ++ ((',' :: gap₂).intercalate texts ++ (gap₃ ++ ['\x7d']))))
      (.object fields) := by
  refine (readsParts_fields depth hgap).readsBack h hgap₁ hgap₂ hgap₃ rfl (by decide) fun c tail fuel hc => ?_
  have hroom : decide (depth + 1 ≤ 1) = false := decide_eq_false (by omega)
  rw [readValue]
  simp only [hc]
  rw [hroom, Bool.and_false, if_neg Bool.false_ne_true]
  rfl

end Objects

section Values

/-- A value whose brackets nest no deeper than `depth`, and whose numbers are whole and fit 64 bits. -/
inductive Writable : Nat → Value → Prop
  | null (depth : Nat) : Writable depth .null
  | boolean (depth : Nat) (b : Bool) : Writable depth (.boolean b)
  | ofNat (depth : Nat) {n : Nat} (h : n < Word.limit 64) : Writable depth (.ofNat n)
  | text (depth : Nat) (s : String) : Writable depth (.text s)
  | list {depth : Nat} {items : List Value} (h : ∀ v ∈ items, Writable depth v) : Writable (depth + 1) (.list items)
  | object {depth : Nat} {fields : List (String × Value)} (h : ∀ field ∈ fields, Writable depth field.2) :
      Writable (depth + 1) (.object fields)

private theorem compactItems_eq (items : List Value) : compactItems items = items.map (·.compact) := by
  induction items with
  | nil => rw [compactItems, List.map_nil]
  | cons v items ih => rw [compactItems, ih, List.map_cons]

private theorem compactFields_eq (fields : List (String × Value)) :
    compactFields fields = fields.map fun (key, v) => quote key ++ ":" ++ v.compact := by
  induction fields with
  | nil => rw [compactFields, List.map_nil]
  | cons field fields ih => rw [compactFields, ih, List.map_cons]

private theorem indentedItems_eq (k : Nat) (items : List Value) :
    indentedItems k items = items.map (·.indented k) := by
  induction items with
  | nil => rw [indentedItems, List.map_nil]
  | cons v items ih => rw [indentedItems, ih, List.map_cons]

private theorem indentedFields_eq (k : Nat) (fields : List (String × Value)) :
    indentedFields k fields = fields.map fun (key, v) => quote key ++ ": " ++ v.indented k := by
  induction fields with
  | nil => rw [indentedFields, List.map_nil]
  | cons field fields ih => rw [indentedFields, ih, List.map_cons]

private theorem forall₂_texts {β : Type} {IsPart : List Char → β → Prop} {parts : List β} {write : β → String}
    (h : ∀ b ∈ parts, IsPart (write b).toList b) :
    List.Forall₂ IsPart ((parts.map write).map String.toList) parts := by
  rw [List.map_map, List.forall₂_map_left_iff, List.forall₂_same]
  exact h

private theorem blank_lineBreak (k : Nat) : Blank (lineBreak k).toList := by
  rw [lineBreak, String.toList_ofList]
  refine fun x hx => (List.mem_cons.mp hx).elim (fun h => h ▸ rfl) fun h => ?_
  rw [List.eq_of_mem_replicate h]
  rfl

private theorem toList_block (opening closing : String) (k : Nat) (lines : List String) :
    ∃ gap₁ gap₂ gap₃, Blank gap₁ ∧ Blank gap₂ ∧ Blank gap₃ ∧ (block opening closing k lines).toList =
      opening.toList ++ (gap₁ ++ ((',' :: gap₂).intercalate (lines.map String.toList) ++
        (gap₃ ++ closing.toList))) := by
  rw [block]
  cases lines with
  | nil => exact ⟨[], [], [], blank_nil, blank_nil, blank_nil, by simp⟩
  | cons line lines =>
    refine ⟨_, _, _, blank_lineBreak (k + 1), blank_lineBreak (k + 1), blank_lineBreak k, ?_⟩
    simp [String.toList_intercalate]

private theorem readsBack_compact (h : Writable depth v) : ReadsBack (depth + 1) v.compact.toList v := by
  induction h with
  | null depth => exact readsBack_null _
  | boolean depth b => exact readsBack_boolean _ b
  | ofNat depth h => exact readsBack_ofNat _ h
  | text depth s => exact readsBack_text _ s
  | @list depth items h ih =>
    have hlist := readsBack_list (forall₂_texts ih) (Nat.succ_pos depth) blank_nil blank_nil blank_nil
    rw [Value.compact, compactItems_eq]
    simpa [String.toList_intercalate] using hlist
  | @object depth fields h ih =>
    have hfields : ∀ field ∈ fields,
        FieldReadsBack (depth + 1) [] (quote field.1 ++ ":" ++ field.2.compact).toList field :=
      fun field hfield => ⟨_, by simp, ih field hfield⟩
    have hobject := readsBack_object (forall₂_texts hfields) (Nat.succ_pos depth) blank_nil blank_nil blank_nil
      blank_nil
    rw [Value.compact, compactFields_eq]
    simpa [String.toList_intercalate] using hobject

private theorem readsBack_indented (h : Writable depth v) (k : Nat) :
    ReadsBack (depth + 1) (v.indented k).toList v := by
  induction h generalizing k with
  | null depth => exact readsBack_null _
  | boolean depth b => exact readsBack_boolean _ b
  | ofNat depth h => exact readsBack_ofNat _ h
  | text depth s => exact readsBack_text _ s
  | @list depth items h ih =>
    obtain ⟨gap₁, gap₂, gap₃, hgap₁, hgap₂, hgap₃, htext⟩ :=
      toList_block "[" "]" k (items.map (·.indented (k + 1)))
    rw [Value.indented, indentedItems_eq, htext]
    exact readsBack_list (forall₂_texts fun v hv => ih v hv (k + 1)) (Nat.succ_pos depth) hgap₁ hgap₂ hgap₃
  | @object depth fields h ih =>
    obtain ⟨gap₁, gap₂, gap₃, hgap₁, hgap₂, hgap₃, htext⟩ := toList_block "\x7b" "\x7d" k
      (fields.map fun (key, v) => quote key ++ ": " ++ v.indented (k + 1))
    have hfields : ∀ field ∈ fields, FieldReadsBack (depth + 1) [' ']
        (quote field.1 ++ ": " ++ field.2.indented (k + 1)).toList field :=
      fun field hfield => ⟨_, by simp, ih field hfield (k + 1)⟩
    have hgap : Blank [' '] := fun x hx => (List.mem_singleton.mp hx) ▸ rfl
    rw [Value.indented, indentedFields_eq, htext]
    exact readsBack_object (forall₂_texts hfields) (Nat.succ_pos depth) hgap hgap₁ hgap₂ hgap₃

/-- A text of a value: on one line or indented, perhaps with line feeds behind it. -/
inductive Value.Printed (v : Value) : String → Prop
  | compact : v.Printed v.compact
  | indented (k : Nat) : v.Printed (v.indented k)
  | line {s : String} (h : v.Printed s) : v.Printed (s ++ "\n")

private theorem Value.Printed.readsBack {s : String} (hprinted : v.Printed s) (h : Writable depth v) :
    ∃ cs gap, s.toList = cs ++ gap ∧ ReadsBack (depth + 1) cs v ∧ Blank gap := by
  induction hprinted with
  | compact => exact ⟨_, [], (List.append_nil _).symm, readsBack_compact h, blank_nil⟩
  | indented k => exact ⟨_, [], (List.append_nil _).symm, readsBack_indented h k, blank_nil⟩
  | line _ ih =>
    obtain ⟨cs, gap, htext, hread, hgap⟩ := ih
    have hline : Blank ['\n'] := fun x hx => (List.mem_singleton.mp hx) ▸ rfl
    exact ⟨cs, gap ++ ['\n'], by simp [htext], hread, hgap.append hline⟩

/-- A printed value is read, and nothing is left then. -/
theorem Value.Printed.readValue {s : String} (hprinted : v.Printed s) (h : Writable depth v)
    (hdepth : depth + 1 = depthLimit) :
    ∃ c, readValue .keep (fuelFor (.ofText s)) depthLimit (.ofText s) = .ok (v, c) ∧ readEnd c = .ok () := by
  obtain ⟨cs, gap, htext, hread, hgap⟩ := hprinted.readsBack h
  obtain ⟨x, xs, hcs, hx, _⟩ := hread.starts
  have hstart : (Cursor.ofText s).skipBlanks.rest = cs ++ gap := by
    rw [hcs] at htext ⊢
    refine Cursor.rest_skipBlanks_cons ?_ blank_nil hx
    exact htext
  have hfuel : 2 * (Cursor.ofText s).rest.length < fuelFor (.ofText s) := Nat.lt_add_of_pos_right Nat.two_pos
  obtain ⟨c, hc, hrest⟩ := hread.reads _ _ _ hstart hgap.endsNumber hfuel
  refine ⟨c, hdepth ▸ hc, ?_⟩
  have hempty : c.skipBlanks.rest = [] := Cursor.rest_skipBlanks (hrest.trans (List.append_nil gap).symm) hgap nofun
  simp only [readEnd, hempty, List.isEmpty_nil, if_true]

/-- A printed value is what its text is read as. -/
theorem Value.Printed.readWritten {s : String} (hprinted : v.Printed s) (h : Writable depth v)
    (hdepth : depth + 1 = depthLimit) : readWritten s = .ok v := by
  obtain ⟨c, hread, hend⟩ := hprinted.readValue h hdepth
  simp only [Json.readWritten, hread, hend, bind, Except.bind, pure, Except.pure]

end Values
end SchemaSynth.Json
