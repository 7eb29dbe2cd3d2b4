import SchemaSynth.Schema.TableName

/-! Identifiers are plain: nothing is left of a name that could end a word of a statement. -/
namespace SchemaSynth

namespace Text
variable {c : Char} {cs ds : List Char} {limit : Nat}

/-- What is taken is a start of the text. -/
theorem takeBytes_prefix_self (limit : Nat) (cs : List Char) : takeBytes limit cs <+: cs := by
  induction cs generalizing limit with
  | nil => exact List.nil_prefix
  | cons c cs ih =>
    unfold takeBytes
    split
    · exact List.cons_prefix_cons.mpr ⟨rfl, ih _⟩
    · exact List.nil_prefix

private theorem mem_of_mem_takeBytes (h : c ∈ takeBytes limit cs) : c ∈ cs :=
  (takeBytes_prefix_self limit cs).subset h

/-- What is cut behind a start is the start, cut, and what it leaves room for. -/
theorem takeBytes_append (limit : Nat) (cs ds : List Char) :
    takeBytes limit (cs ++ ds) = takeBytes limit cs ++ takeBytes (limit - byteLength cs) ds := by
  induction cs generalizing limit with
  | nil => simp [takeBytes, byteLength]
  | cons c cs ih =>
    rw [List.cons_append, takeBytes, takeBytes, byteLength]
    split
    · rw [ih, List.cons_append, Nat.sub_sub]
    · have hroom : limit - (c.utf8Size + byteLength cs) = 0 := by omega
      rw [hroom, List.nil_append]
      cases ds with
      | nil => rfl
      | cons d ds =>
        have hsize := d.utf8Size_pos
        exact (if_neg (by omega)).symm

/-- The bytes of two texts add up. -/
theorem byteLength_append (cs ds : List Char) :
    byteLength (cs ++ ds) = byteLength cs + byteLength ds := by
  induction cs with
  | nil => simp [byteLength]
  | cons c cs ih =>
    rw [List.cons_append, byteLength, byteLength, ih]
    omega

end Text

namespace Identifier
open Text
variable {s t : String} {c : Char} {cs : List Char} {parts : List String}

def isPlain (c : Char) : Bool :=
  c.isLower || c.isDigit || c = '_'

structure Plain (s : String) : Prop where
  nonempty : s ≠ ""
  chars : ∀ c ∈ s.toList, isPlain c = true

instance : DecidablePred Plain := fun s =>
  decidable_of_iff (s ≠ "" ∧ s.toList.all isPlain = true)
    ⟨fun h => ⟨h.1, List.all_eq_true.mp h.2⟩, fun h => ⟨h.nonempty, List.all_eq_true.mpr h.chars⟩⟩

private theorem plain_ofList (hne : cs ≠ []) (h : ∀ c ∈ cs, isPlain c = true) : Plain (String.ofList cs) :=
  ⟨by simpa using hne, by simpa using h⟩

private theorem isAlpha_eq (c : Char) : c.isAlpha =
    (decide ('A'.val ≤ c.val ∧ c.val ≤ 'Z'.val) ||
      (decide ('a'.val ≤ c.val) && decide (c.val ≤ 'z'.val))) := rfl

private theorem lt_128_of_isWord (h : isWord c = true) : c.toNat < 128 := by
  have hval : c.toNat = c.val.toNat := rfl
  simp only [isWord, Char.isAlphanum, isAlpha_eq, Char.isDigit, Bool.or_eq_true, Bool.and_eq_true,
    decide_eq_true_eq, UInt32.le_iff_toNat_le, ge_iff_le] at h
  rcases h with ((⟨_, h⟩ | ⟨_, h⟩) | ⟨_, h⟩) | rfl
  · have hz : 'Z'.val.toNat = 90 := rfl
    omega
  · have hz : 'z'.val.toNat = 122 := rfl
    omega
  · have h9 : '9'.val.toNat = 57 := rfl
    omega
  · decide

/-- Word characters are few enough to go through one by one. -/
theorem of_isWord {P : Char → Prop} [DecidablePred P]
    (hP : ∀ n < 128, isWord (Char.ofNat n) = true → P (Char.ofNat n)) (h : isWord c = true) : P c := by
  have hc := hP c.toNat (lt_128_of_isWord h)
  rw [Char.ofNat_toNat] at hc
  exact hc h

private theorem isPlain_toLower (h : isWord c = true) : isPlain c.toLower = true :=
  of_isWord (P := fun c => isPlain c.toLower = true) (by decide) h

/-- Plain characters are word characters. -/
theorem isWord_of_isPlain (h : isPlain c = true) : isWord c = true := by
  have halpha : c.isAlpha = (c.isUpper || c.isLower) := rfl
  simp only [isPlain, Bool.or_eq_true] at h
  simp only [isWord, Char.isAlphanum, halpha, Bool.or_eq_true]
  rcases h with (h | h) | h
  · exact Or.inl (Or.inl (Or.inr h))
  · exact Or.inl (Or.inr h)
  · exact Or.inr h

private theorem utf8Size_of_isPlain (h : isPlain c = true) : c.utf8Size = 1 :=
  of_isWord (P := fun c => c.utf8Size = 1) (by decide) (isWord_of_isPlain h)

/-- A plain character takes one byte. -/
theorem byteLength_of_plain (h : ∀ c ∈ cs, isPlain c = true) : byteLength cs = cs.length := by
  induction cs with
  | nil => rfl
  | cons c cs ih =>
    obtain ⟨hc, hcs⟩ := List.forall_mem_cons.mp h
    rw [byteLength, utf8Size_of_isPlain hc, ih hcs, List.length_cons, Nat.add_comm]

/-- Plain texts are cut by characters. -/
theorem takeBytes_of_plain (h : ∀ c ∈ cs, isPlain c = true) (limit : Nat) :
    takeBytes limit cs = cs.take limit := by
  induction cs generalizing limit with
  | nil => rw [takeBytes, List.take_nil]
  | cons c cs ih =>
    obtain ⟨hc, hcs⟩ := List.forall_mem_cons.mp h
    rw [takeBytes, utf8Size_of_isPlain hc]
    cases limit with
    | zero => rfl
    | succ limit => rw [if_pos (by omega), Nat.add_sub_cancel, ih hcs, List.take_succ_cons]

/-- A plain name is cut by its characters. -/
theorem toList_truncate_of_plain (h : Plain s) : (truncate s).toList = s.toList.take maxBytes := by
  rw [truncate, String.toList_ofList, takeBytes_of_plain h.chars]

theorem Plain.append (hs : Plain s) (ht : Plain t) : Plain (s ++ t) := by
  refine ⟨by simp [hs.nonempty], fun c hc => ?_⟩
  rw [String.toList_append, List.mem_append] at hc
  exact hc.elim (hs.chars c) (ht.chars c)

/-- A cut name stays plain. -/
theorem Plain.truncate (hs : Plain s) : Plain (truncate s) := by
  refine plain_ofList ?_ fun c hc => hs.chars c (mem_of_mem_takeBytes hc)
  obtain ⟨c, cs, hcs⟩ := List.exists_cons_of_ne_nil (by simpa using hs.nonempty : s.toList ≠ [])
  have hsize : c.utf8Size ≤ maxBytes := by
    rw [utf8Size_of_isPlain (hs.chars c (by simp [hcs]))]
    decide
  simp [hcs, takeBytes, hsize]

/-- A name with a suffix is plain if both are. -/
theorem Plain.suffixed (hs : Plain s) (ht : Plain t) : Plain (suffixed s t) := by
  refine ⟨by simp [Identifier.suffixed, ht.nonempty], fun c hc => ?_⟩
  rw [Identifier.suffixed, String.toList_append, String.toList_ofList, List.mem_append] at hc
  exact hc.elim (fun hc => hs.chars c (mem_of_mem_takeBytes hc)) (ht.chars c)

/-- Joined parts are plain if each of them is. -/
theorem plain_joined (hs : Plain s) (h : ∀ p ∈ parts, Plain p) : Plain (joined (s :: parts)) := by
  apply Plain.truncate
  induction parts generalizing s with
  | nil =>
    rw [String.intercalate_singleton]
    exact hs
  | cons p parts ih =>
    obtain ⟨hp, hparts⟩ := List.forall_mem_cons.mp h
    rw [String.intercalate_cons_of_ne_nil (List.cons_ne_nil p parts)]
    exact (hs.append (by decide)).append (ih hp hparts)

/-- Numerals are plain. -/
theorem plain_toString (n : Nat) : Plain (toString n) := by
  refine ⟨by simp, fun c hc => ?_⟩
  have hdigit : c.isDigit = true :=
    Nat.isDigit_of_mem_toDigits (b := 10) (n := n) (by decide) (by decide) (by simpa using hc)
  simp [isPlain, hdigit]

/-- A cut name is within the limit. -/
theorem byteLength_truncate_le (s : String) : byteLength (truncate s).toList ≤ maxBytes := by
  rw [truncate, String.toList_ofList]
  exact byteLength_takeBytes_le _ _

/-- A suffixed name is within the limit if its suffix is. -/
theorem byteLength_suffixed_le (base : String) (h : byteLength s.toList ≤ maxBytes) :
    byteLength (suffixed base s).toList ≤ maxBytes := by
  rw [suffixed, String.toList_append, String.toList_ofList, byteLength_append]
  have := byteLength_takeBytes_le (maxBytes - byteLength s.toList) base.toList
  omega

/-- A suffix is kept whole, so a name without it is not made with it. -/
theorem suffixed_ne {base suffix name : String} (h : ¬ suffix.toList <:+ name.toList) :
    suffixed base suffix ≠ name := by
  rintro rfl
  apply h
  rw [suffixed, String.toList_append]
  exact List.suffix_append _ _

/-- A start that is short enough is kept whole too. -/
theorem truncate_append_ne {start rest name : String} (hstart : byteLength start.toList ≤ maxBytes)
    (h : ¬ start.toList <+: name.toList) : Identifier.truncate (start ++ rest) ≠ name := by
  rintro rfl
  apply h
  rw [Identifier.truncate, String.toList_ofList, String.toList_append, takeBytes_append,
    takeBytes_of_le hstart]
  exact List.prefix_append _ _

/-- Two names with a common start are cut alike exactly if what the start leaves room for agrees. -/
theorem truncate_append_eq_iff {start : String} :
    Identifier.truncate (start ++ s) = Identifier.truncate (start ++ t) ↔
      takeBytes (maxBytes - byteLength start.toList) s.toList =
        takeBytes (maxBytes - byteLength start.toList) t.toList := by
  simp only [Identifier.truncate, String.toList_append, takeBytes_append, String.ofList_inj,
    List.append_cancel_left_eq]

/-- Two bases are suffixed alike exactly if they agree as far as the suffix leaves room. -/
theorem suffixed_eq_iff {suffix : String} :
    suffixed s suffix = suffixed t suffix ↔
      takeBytes (maxBytes - byteLength suffix.toList) s.toList =
        takeBytes (maxBytes - byteLength suffix.toList) t.toList := by
  rw [suffixed, suffixed, ← String.toList_inj, String.toList_append, String.toList_append,
    List.append_cancel_right_eq, String.toList_ofList, String.toList_ofList]

/-- Trimming adds no character. -/
theorem mem_of_mem_trimUnderscores (h : c ∈ trimUnderscores cs) : c ∈ cs := by
  rw [trimUnderscores, List.mem_reverse] at h
  have hstart := (List.dropWhile_sublist _).subset h
  exact (List.dropWhile_sublist _).subset (List.mem_reverse.mp hstart)

/-- Any text is made a plain name. -/
theorem plain_sanitize (name : String) : Plain (sanitize name) := by
  unfold sanitize sanitizeChars
  dsimp only
  split
  · decide
  · rename_i hne
    refine plain_ofList hne fun c hc => ?_
    obtain ⟨w, hw, rfl⟩ := List.mem_map.mp hc
    exact isPlain_toLower (List.mem_filter.mp (mem_of_mem_trimUnderscores hw)).2

end Identifier

/-- The table of a class has a plain name, whatever the class is called. -/
theorem TableName.plain_ofClassName (name : String) : Identifier.Plain (ofClassName name) :=
  (Identifier.plain_sanitize name).truncate

end SchemaSynth
