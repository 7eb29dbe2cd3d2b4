import SchemaSynth.Proofs.PassedScalars

/-! Whoever reads a value again, with fuel enough, comes to the same place, also if what was kept is
passed over then. -/
namespace SchemaSynth.Json
open Cursor
variable {α : Type} {c c' : Cursor} {use : Use} {fuel depth : Nat} {v : Value} {key : String}
  {first : Bool} {done : List Value}

/-- A key is read again to the same place. -/
theorem readKey_rereads (h : readKey .keep fuel first c = .ok (key, c')) :
    Rereads c c' c.rest.length (readKey · · first c) key := by
  have hle := c.length_next_le
  rw [readKey] at h
  split at h
  case h_2 cs heq =>
    obtain ⟨cs, rfl, hrereads⟩ := readText_rereads h
    obtain ⟨hlt, hagain⟩ := hrereads []
    refine ⟨by omega, fun use fuel' hfuel => ?_⟩
    simp only [readKey, heq]
    exact hagain use fuel' (by omega)
  all_goals cases h

/-- A colon makes the rest shorter. -/
theorem length_readColon_lt (h : readColon c = .ok c') : c'.rest.length < c.rest.length := by
  have hle := c.length_skipBlanks_le
  rw [readColon] at h
  split at h
  case h_2 cs heq =>
    cases h
    rw [rest_next heq]
    rw [heq, List.length_cons] at hle
    omega
  all_goals cases h

/-- What is read with a certain fuel is read again with two units of it for each character. -/
structure Rereadable (fuel : Nat) : Prop where
  value : ∀ {depth c v c'}, readValue .keep fuel depth c = .ok (v, c') →
    Rereads c c' (2 * c.rest.length) (readValue · · depth c) v
  items : ∀ {depth first done c v c'}, readItems .keep fuel depth first done c = .ok (v, c') →
    ∃ items, v = .list (done.reverse ++ items) ∧ ∀ done', Rereads c c' (2 * c.rest.length + 1)
      (readItems · · depth first done' c) (.list (done'.reverse ++ items))
  fields : ∀ {depth first done c v c'}, readFields .keep fuel depth first done c = .ok (v, c') →
    ∃ fields, v = .object (done.reverse ++ fields) ∧ ∀ done', Rereads c c' (2 * c.rest.length + 1)
      (readFields · · depth first done' c) (.object (done'.reverse ++ fields))

private theorem rereads_of_step {bound : Nat} {a : α} {reading : Use → Nat → Except TextError (α × Cursor)}
    (bound' : Nat) (reading' : Use → Nat → Except TextError (α × Cursor))
    (hlt : c'.rest.length < c.rest.length) (hbound : bound' < bound)
    (hagain : ∀ use fuel, bound' ≤ fuel → ∃ a', reading' use fuel = .ok (a', c') ∧ (use = .keep → a' = a))
    (hstep : ∀ use fuel, reading use (fuel + 1) = reading' use fuel) : Rereads c c' bound reading a := by
  refine ⟨hlt, fun use fuel hfuel => ?_⟩
  obtain ⟨fuel, rfl⟩ := Nat.exists_eq_add_one.mpr (show 0 < fuel by omega)
  rw [hstep]
  exact hagain use fuel (by omega)

private theorem again_map {β : Type} {reading : Except TextError (α × Cursor)} {a : α} (f : α → β)
    (h : ∃ a', reading = .ok (a', c') ∧ (use = .keep → a' = a)) :
    ∃ b, reading.map (fun (a, c) => (f a, c)) = .ok (b, c') ∧ (use = .keep → b = f a) := by
  obtain ⟨a', ha', hsame⟩ := h
  exact ⟨f a', map_eq_ok.mpr ⟨_, ha', rfl⟩, fun hkeep => congrArg f (hsame hkeep)⟩

private theorem again_readNumber {negative : Bool} {n : Number}
    (h : readNumber .keep negative c = .ok (n, c')) :
    ∃ n', readNumber use negative c = .ok (n', c') ∧ (use = .keep → n' = n) := by
  cases use with
  | keep => exact ⟨n, h, fun _ => rfl⟩
  | pass =>
    obtain ⟨n', hn'⟩ := (readNumber_pass h).2
    exact ⟨n', hn', nofun⟩

private theorem not_tooDeep (h : ¬ (decide (Use.keep = .keep) && decide (depth ≤ 1)) = true) :
    ¬ (decide (use = .keep) && decide (depth ≤ 1)) = true := by
  cases use with
  | keep => exact h
  | pass => simp

private theorem Rereadable.value_succ (again : Rereadable fuel)
    (h : readValue .keep (fuel + 1) depth c = .ok (v, c')) :
    Rereads c c' (2 * c.rest.length) (readValue · · depth c) v := by
  have hblanks := c.length_skipBlanks_le
  rw [Json.readValue] at h
  dsimp only at h
  split at h
  case h_1 => cases h
  all_goals
    rename_i heq
    have hlen := length_next_skipBlanks_lt heq
  case h_2 | h_3 | h_4 =>
    have hle := (readWord_eq_ok h).2
    refine rereads_of_step 0 _ (by omega) (by omega) (fun _ _ _ => ⟨v, h, fun _ => rfl⟩) ?_
    intro use fuel
    simp only [readValue, heq]
  case h_5 =>
    obtain ⟨⟨n, c₁⟩, hn, h⟩ := map_eq_ok.mp h
    obtain ⟨rfl, rfl⟩ := Prod.mk.inj h
    have hlt := (readNumber_pass hn).1
    refine rereads_of_step 0 _ (Nat.lt_trans hlt hlen) (by omega)
      (fun _ _ _ => again_map Value.number (again_readNumber hn)) ?_
    intro use fuel
    simp only [readValue, heq]
  case h_6 =>
    obtain ⟨⟨s, c₁⟩, hs, h⟩ := map_eq_ok.mp h
    obtain ⟨rfl, rfl⟩ := Prod.mk.inj h
    obtain ⟨cs, rfl, hrereads⟩ := readText_rereads hs
    obtain ⟨hlt, hagain⟩ := hrereads []
    refine rereads_of_step _ _ (Nat.lt_trans hlt hlen) (by omega)
      (fun use fuel hfuel => again_map Value.text (hagain use fuel hfuel)) ?_
    intro use fuel
    simp only [readValue, heq]
  case h_7 =>
    split at h
    · cases h
    rename_i hdepth
    obtain ⟨items, rfl, hrereads⟩ := again.items h
    obtain ⟨hlt, hagain⟩ := hrereads []
    refine rereads_of_step _ _ (by omega) (by omega) hagain ?_
    intro use fuel
    simp only [readValue, heq]
    exact if_neg (not_tooDeep hdepth)
  case h_8 =>
    split at h
    · cases h
    rename_i hdepth
    obtain ⟨fields, rfl, hrereads⟩ := again.fields h
    obtain ⟨hlt, hagain⟩ := hrereads []
    refine rereads_of_step _ _ (by omega) (by omega) hagain ?_
    intro use fuel
    simp only [readValue, heq]
    exact if_neg (not_tooDeep hdepth)
  case h_9 =>
    split at h
    · rename_i hdigit
      obtain ⟨⟨n, c₁⟩, hn, h⟩ := map_eq_ok.mp h
      obtain ⟨rfl, rfl⟩ := Prod.mk.inj h
      have hlt := (readNumber_pass hn).1
      refine rereads_of_step 0 _ (Nat.lt_of_lt_of_le hlt hblanks) (by omega)
        (fun _ _ _ => again_map Value.number (again_readNumber hn)) ?_
      intro use fuel
      simp only [readValue, heq]
      exact if_pos hdigit
    · cases h

private theorem Rereadable.items_succ (again : Rereadable fuel)
    (h : readItems .keep (fuel + 1) depth first done c = .ok (v, c')) :
    ∃ items, v = .list (done.reverse ++ items) ∧ ∀ done', Rereads c c' (2 * c.rest.length + 1)
      (readItems · · depth first done' c) (.list (done'.reverse ++ items)) := by
  have hblanks := c.length_skipBlanks_le
  rw [readItems] at h
  dsimp only at h
  split at h
  case h_1 => cases h
  all_goals
    rename_i heq
    have hlen := length_next_skipBlanks_lt heq
  case h_2 =>
    cases h
    refine ⟨[], by simp, fun done' => ?_⟩
    refine rereads_of_step 0 _ hlen (by omega) (fun _ _ _ => ⟨_, rfl, fun _ => rfl⟩) ?_
    intro use fuel
    simp only [readItems, heq, List.append_nil]
  case h_3 x cs hopen =>
    have hdlen := c.length_entry_le first
    split at h
    · cases h
    rename_i hseparator
    rw [← entry] at h
    split at h
    · cases h
    rename_i hclosed
    obtain ⟨⟨w, c₁⟩, hw, h⟩ := bind_eq_ok.mp h
    dsimp only at h
    obtain ⟨hlt, hvalue⟩ := again.value hw
    obtain ⟨items, rfl, hitems⟩ := again.items h
    have hlt' := (hitems []).1
    refine ⟨w :: items, by simp, fun done' => ?_⟩
    refine rereads_of_step (2 * c.rest.length)
      (fun use fuel => readValue use fuel depth (c.entry first) >>= fun p =>
        readItems use fuel depth false (p.1 :: done') p.2) (by omega) (by omega) ?_ ?_
    · intro use fuel' hfuel
      obtain ⟨w', hw', hsame⟩ := hvalue use fuel' (by omega)
      obtain ⟨v', hv', hsame'⟩ := (hitems (w' :: done')).2 use fuel' (by omega)
      refine ⟨v', bind_eq_ok.mpr ⟨_, hw', hv'⟩, fun hkeep => ?_⟩
      rw [hsame' hkeep, hsame hkeep]
      simp
    · intro use fuel'
      simp only [readItems, heq]
      rw [if_neg hseparator, ← entry, if_neg]
      cases use with
      | keep => exact hclosed
      | pass => simp

/-- What comes of one unit of fuel in reading the fields of an object: the closing bracket is met, or one
more field is read. -/
inductive FieldsRead (fuel depth : Nat) (first : Bool) (done : List (String × Value)) (c : Cursor) :
    Value → Cursor → Prop
  | closed {cs : List Char} (closes : c.skipBlanks.rest = '\x7d' :: cs) :
      FieldsRead fuel depth first done c (.object done.reverse) c.skipBlanks.next
  | field {x : Char} {cs : List Char} {key : String} {w v : Value} {c₁ c₂ c₃ c' : Cursor}
      (starts : c.skipBlanks.rest = x :: cs) (stays : x ≠ '\x7d')
      (separated : ¬ (!first && x != ',') = true)
      (keyRead : readKey .keep fuel first (c.entry first) = .ok (key, c₁))
      (colonRead : readColon c₁ = .ok c₂) (valueRead : readValue .keep fuel depth c₂ = .ok (w, c₃))
      (rest : readFields .keep fuel depth false ((key, w) :: done) c₃ = .ok (v, c')) :
      FieldsRead fuel depth first done c v c'

/-- A success comes of the closing bracket, or of one more field and a success behind it. -/
theorem fieldsRead {done : List (String × Value)}
    (h : readFields .keep (fuel + 1) depth first done c = .ok (v, c')) :
    FieldsRead fuel depth first done c v c' := by
  rw [readFields] at h
  dsimp only at h
  split at h
  case h_1 => cases h
  case h_2 cs heq =>
    cases h
    exact .closed heq
  case h_3 x cs hstays heq =>
    split at h
    · cases h
    rename_i hseparated
    rw [← entry] at h
    obtain ⟨⟨key, c₁⟩, hkey, h⟩ := bind_eq_ok.mp h
    obtain ⟨c₂, hcolon, h⟩ := bind_eq_ok.mp h
    obtain ⟨⟨w, c₃⟩, hw, h⟩ := bind_eq_ok.mp h
    exact .field heq hstays hseparated hkey hcolon hw h

private theorem Rereadable.fields_succ {done : List (String × Value)} (again : Rereadable fuel)
    (h : readFields .keep (fuel + 1) depth first done c = .ok (v, c')) :
    ∃ fields, v = .object (done.reverse ++ fields) ∧ ∀ done', Rereads c c' (2 * c.rest.length + 1)
      (readFields · · depth first done' c) (.object (done'.reverse ++ fields)) := by
  cases fieldsRead h with
  | closed closes =>
    have hlen := length_next_skipBlanks_lt closes
    refine ⟨[], by simp, fun done' => ?_⟩
    refine rereads_of_step 0 _ hlen (by omega) (fun _ _ _ => ⟨_, rfl, fun _ => rfl⟩) ?_
    intro use fuel
    simp only [readFields, closes, List.append_nil]
  | @field x cs key w _ c₁ c₂ c₃ _ starts stays separated keyRead colonRead valueRead rest =>
    have hentry := c.length_entry_le first
    obtain ⟨hlt₁, hkeys⟩ := readKey_rereads keyRead
    have hlt₂ := length_readColon_lt colonRead
    obtain ⟨hlt₃, hvalue⟩ := again.value valueRead
    obtain ⟨fields, rfl, hfields⟩ := again.fields rest
    have hlt₄ := (hfields []).1
    refine ⟨(key, w) :: fields, by simp, fun done' => ?_⟩
    refine rereads_of_step (2 * c.rest.length)
      (fun use fuel => readKey use fuel first (c.entry first) >>= fun k =>
        readColon k.2 >>= fun c => readValue use fuel depth c >>= fun p =>
        readFields use fuel depth false ((k.1, p.1) :: done') p.2) (by omega) (by omega) ?_ ?_
    · intro use fuel' hfuel
      obtain ⟨key', hkey', hsame⟩ := hkeys use fuel' (by omega)
      obtain ⟨w', hw', hsame'⟩ := hvalue use fuel' (by omega)
      obtain ⟨v', hv', hsame''⟩ := (hfields ((key', w') :: done')).2 use fuel' (by omega)
      refine ⟨v', bind_eq_ok.mpr ⟨_, hkey', bind_eq_ok.mpr ⟨_, colonRead, bind_eq_ok.mpr ⟨_, hw', hv'⟩⟩⟩,
        fun hkeep => ?_⟩
      rw [hsame'' hkeep, hsame' hkeep, hsame hkeep]
      simp
    · intro use fuel'
      simp only [readFields, starts, entry]
      exact if_neg separated

/-- Two units of fuel for each character are enough, and what can be kept can be passed over, up to the
same place. -/
theorem rereadable (fuel : Nat) : Rereadable fuel := by
  induction fuel with
  | zero => exact ⟨nofun, nofun, nofun⟩
  | succ fuel ih => exact ⟨ih.value_succ, ih.items_succ, ih.fields_succ⟩

/-- An object is read behind its bracket. -/
theorem readFields_of_object {fields : List (String × Value)}
    (h : readValue .keep (fuel + 1) depth c = .ok (.object fields, c')) :
    ∃ cs, c.skipBlanks.rest = '\x7b' :: cs ∧
      readFields .keep fuel (depth - 1) true [] c.skipBlanks.next = .ok (.object fields, c') := by
  rw [readValue] at h
  dsimp only at h
  split at h
  case h_1 => cases h
  case h_2 | h_3 | h_4 => cases (readWord_eq_ok h).1
  case h_7 =>
    split at h
    · cases h
    · obtain ⟨items, hitems, _⟩ := (rereadable fuel).items h
      cases hitems
  case h_8 cs heq =>
    split at h
    · cases h
    · exact ⟨cs, heq, h⟩
  case h_9 =>
    split at h
    · obtain ⟨_, _, h⟩ := map_eq_ok.mp h
      cases h
    · cases h
  case h_5 | h_6 =>
    obtain ⟨_, _, h⟩ := map_eq_ok.mp h
    cases h

end SchemaSynth.Json
