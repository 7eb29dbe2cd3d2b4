import Mathlib.Data.List.Forall2
import Mathlib.Data.List.Induction

/-! Sequences whose elements rest on what comes before them, those elements that are the first of their
kind, sequences that go along with others, and the positions of elements. Of steps in sequence that may fail,
a success is one of each. -/
namespace SchemaSynth
variable {α β γ : Type}

/-- Every element stands in a relation to those before it. -/
def Follows (P : List α → α → Prop) (xs : List α) : Prop :=
  ∀ before x after, xs = before ++ x :: after → P before x

private theorem follows_iff_take {P : List α → α → Prop} {xs : List α} :
    Follows P xs ↔ ∀ i : Fin xs.length, P (xs.take i) xs[i] := by
  constructor
  · intro h i
    exact h _ _ (xs.drop (i + 1)) (by simp)
  · rintro h before x after rfl
    simpa using h ⟨before.length, by simp⟩

instance {P : List α → α → Prop} [∀ before x, Decidable (P before x)] (xs : List α) :
    Decidable (Follows P xs) :=
  decidable_of_iff _ follows_iff_take.symm

theorem follows_nil (P : List α → α → Prop) : Follows P [] := by
  intro before x after h
  simp at h

/-- The second of two sequences follows with the first in front of it. -/
theorem follows_append {P : List α → α → Prop} {xs ys : List α} :
    Follows P (xs ++ ys) ↔ Follows P xs ∧ Follows (fun before => P (xs ++ before)) ys := by
  constructor
  · intro h
    constructor
    · intro before x after hx
      exact h before x (after ++ ys) (by simp [hx])
    · intro before y after hy
      exact h (xs ++ before) y after (by simp [hy])
  · rintro ⟨hxs, hys⟩ before z after h
    rcases List.append_eq_append_iff.mp h with ⟨between, rfl, hy⟩ | ⟨between, rfl, hz⟩
    · exact hys between z after hy
    · cases between with
      | nil => simpa using hys [] z after hz.symm
      | cons x between =>
        obtain ⟨rfl, _⟩ := List.cons.inj hz
        exact hxs before z between rfl

theorem follows_cons {P : List α → α → Prop} {x : α} {xs : List α} :
    Follows P (x :: xs) ↔ P [] x ∧ Follows (fun before => P (x :: before)) xs := by
  constructor
  · intro h
    exact ⟨h [] x xs rfl, fun before y after hy => h (x :: before) y after (by rw [hy]; rfl)⟩
  · rintro ⟨hx, hxs⟩ before y after h
    cases before with
    | nil =>
      obtain ⟨rfl, _⟩ := List.cons.inj h
      exact hx
    | cons z before =>
      obtain ⟨rfl, htail⟩ := List.cons.inj h
      exact hxs before y after htail

/-- In a sequence of blocks an element has the blocks before its own behind it, and the part of its
own block that is before it. -/
theorem follows_flatMap {P : List β → β → Prop} {f : α → List β} {xs : List α} :
    Follows P (xs.flatMap f) ↔
      Follows (fun before x => Follows (fun part => P (before.flatMap f ++ part)) (f x)) xs := by
  induction xs generalizing P with
  | nil => exact ⟨fun _ => follows_nil _, fun _ => follows_nil _⟩
  | cons x xs ih =>
    rw [List.flatMap_cons, follows_append, ih, follows_cons]
    simp only [List.flatMap_nil, List.nil_append, List.flatMap_cons, List.append_assoc]

theorem Follows.imp {P Q : List α → α → Prop} {xs : List α} (h : Follows P xs)
    (hPQ : ∀ before x, P before x → Q before x) : Follows Q xs :=
  fun before x after hx => hPQ before x (h before x after hx)

/-- What holds of all elements behind any others holds along the sequence. -/
theorem follows_of_forall {P : List α → α → Prop} {xs : List α}
    (h : ∀ before, ∀ x ∈ xs, P before x) : Follows P xs := by
  intro before x after hx
  exact h before x (by simp [hx])

/-- A split of a sequence is before its first element or behind it. -/
theorem exists_split_cons {P : List α → Prop} {x y : α} {xs : List α} :
    (∃ before after, y :: xs = before ++ x :: after ∧ P before) ↔
      y = x ∧ P [] ∨ ∃ before after, xs = before ++ x :: after ∧ P (y :: before) := by
  constructor
  · rintro ⟨before, after, hsplit, hP⟩
    cases before with
    | nil => exact Or.inl ⟨(List.cons.inj hsplit).1, hP⟩
    | cons z before =>
      obtain ⟨rfl, htail⟩ := List.cons.inj hsplit
      exact Or.inr ⟨before, after, htail, hP⟩
  · rintro (⟨rfl, hP⟩ | ⟨before, after, rfl, hP⟩)
    · exact ⟨[], xs, rfl, hP⟩
    · exact ⟨y :: before, after, rfl, hP⟩

/-- One more element is kept unless it was there. -/
theorem eraseDups_concat [BEq α] [LawfulBEq α] (xs : List α) (x : α) :
    (xs ++ [x]).eraseDups = if xs.contains x then xs.eraseDups else xs.eraseDups ++ [x] := by
  rw [List.eraseDups_append, List.removeAll]
  by_cases hx : x ∈ xs <;> simp [hx, List.eraseDups_cons]

theorem nodup_eraseDups [BEq α] [LawfulBEq α] (xs : List α) : xs.eraseDups.Nodup := by
  match xs with
  | [] => exact List.nodup_nil
  | x :: xs =>
    rw [List.eraseDups_cons, List.nodup_cons, List.mem_eraseDups]
    exact ⟨by simp, nodup_eraseDups _⟩
termination_by xs.length
decreasing_by simpa using Nat.lt_succ_of_le (List.length_filter_le _ _)

section Firsts
variable [BEq β] {key : α → β} {x : α} {xs : List α}

def firstsBy (key : α → β) (xs : List α) : List α :=
  xs.eraseDupsBy fun x y => key x == key y

private theorem firstsBy_cons (key : α → β) (x : α) (xs : List α) :
    firstsBy key (x :: xs) = x :: firstsBy key (xs.filter fun y => key y != key x) := by
  simp only [firstsBy, List.eraseDupsBy_cons, bne, Bool.decide_eq_false]

variable [LawfulBEq β]

/-- An element behind others is kept if its key is a new one. -/
theorem firstsBy_concat (key : α → β) (xs : List α) (x : α) : firstsBy key (xs ++ [x]) =
    if (xs.map key).contains (key x) then firstsBy key xs else firstsBy key xs ++ [x] := by
  match xs with
  | [] => rfl
  | y :: ys =>
    rw [List.cons_append, firstsBy_cons, firstsBy_cons, List.filter_append, List.map_cons,
      List.contains_cons]
    by_cases hxy : key x = key y
    · simp [hxy]
    · have hcontains : ((ys.filter fun z => key z != key y).map key).contains (key x) =
          (ys.map key).contains (key x) := by
        rw [← Function.comp_def (· != key y) key, ← List.filter_map, Bool.eq_iff_iff]
        simp [hxy]
      have hx : [x].filter (fun z => key z != key y) = [x] := by simp [hxy]
      rw [hx, firstsBy_concat, hcontains, beq_false_of_ne hxy, Bool.false_or]
      split <;> rfl
termination_by xs.length
decreasing_by simpa using Nat.lt_succ_of_le (List.length_filter_le _ _)

/-- The keys of the first elements are all keys, each once. -/
theorem map_firstsBy (key : α → β) (xs : List α) :
    (firstsBy key xs).map key = (xs.map key).eraseDups := by
  induction xs using List.reverseRecOn with
  | nil => rfl
  | append_singleton xs x ih =>
    rw [firstsBy_concat, List.map_append, List.map_singleton, eraseDups_concat]
    split
    · exact ih
    · rw [List.map_append, ih, List.map_singleton]

/-- To take the first elements twice changes nothing more. -/
theorem firstsBy_firstsBy (key : α → β) (xs : List α) :
    firstsBy key (firstsBy key xs) = firstsBy key xs := by
  induction xs using List.reverseRecOn with
  | nil => rfl
  | append_singleton xs x ih =>
    rw [firstsBy_concat]
    split
    · exact ih
    · rename_i hnew
      have hnew' : ¬ ((firstsBy key xs).map key).contains (key x) = true := by
        rw [map_firstsBy]
        simpa using hnew
      rw [firstsBy_concat, if_neg hnew', ih]

/-- A fold that passes over the elements whose key has come up before. -/
theorem foldl_firstsBy {f : γ → α → γ} {start : γ}
    (h : ∀ (before : List α) (x : α), key x ∈ before.map key →
      f (before.foldl f start) x = before.foldl f start) (xs : List α) :
    (firstsBy key xs).foldl f start = xs.foldl f start := by
  induction xs using List.reverseRecOn with
  | nil => rfl
  | append_singleton xs x ih =>
    rw [firstsBy_concat, List.foldl_append, List.foldl_cons, List.foldl_nil]
    split
    · rename_i hx
      rw [ih, h xs x (List.contains_iff_mem.mp hx)]
    · rw [List.foldl_append, ih, List.foldl_cons, List.foldl_nil]

end Firsts

section Alongside
variable {R : α → β → Prop} {xs : List α} {ys : List β}

/-- Related sequences have one image if related elements have. -/
theorem map_eq_of_forall₂ {f : α → γ} {g : β → γ} (h : List.Forall₂ R xs ys)
    (hfg : ∀ x y, R x y → g y = f x) : ys.map g = xs.map f := by
  induction h with
  | nil => rfl
  | cons hxy _ ih => rw [List.map_cons, List.map_cons, hfg _ _ hxy, ih]

/-- Of related sequences both have an element of a kind or neither. -/
theorem any_eq_of_forall₂ {p : α → Bool} {q : β → Bool} (h : List.Forall₂ R xs ys)
    (hpq : ∀ x y, R x y → q y = p x) : ys.any q = xs.any p := by
  induction h with
  | nil => rfl
  | cons hxy _ ih => rw [List.any_cons, List.any_cons, hpq _ _ hxy, ih]

def Positioned (R : α → β → Prop) (x : α × Nat) (y : β × Nat) : Prop :=
  R x.1 y.1 ∧ y.2 = x.2

/-- Related elements of related sequences have the same positions. -/
theorem forall₂_zipIdx (h : List.Forall₂ R xs ys) (n : Nat) :
    List.Forall₂ (Positioned R) (xs.zipIdx n) (ys.zipIdx n) := by
  induction h generalizing n with
  | nil => exact .nil
  | cons hxy _ ih => exact .cons ⟨hxy, rfl⟩ (ih (n + 1))

end Alongside

/-- Positions increase along a sequence. -/
theorem zipIdx_sorted (xs : List α) (n : Nat) : (xs.zipIdx n).Pairwise (fun x y => x.2 < y.2) := by
  apply List.pairwise_map.mp
  rw [List.zipIdx_map_snd]
  exact List.pairwise_lt_range'

section Steps
variable {ε : Type} {x : Except ε α} {b : β}

/-- Two steps succeed exactly if the first does, and the second on what it yields. -/
theorem bind_eq_ok {f : α → Except ε β} : x >>= f = .ok b ↔ ∃ a, x = .ok a ∧ f a = .ok b := by
  cases x with
  | error e => exact iff_of_false nofun nofun
  | ok a => exact ⟨fun h => ⟨a, rfl, h⟩, fun ⟨_, ha, h⟩ => Except.ok.inj ha ▸ h⟩

/-- A changed result is a success exactly if the result is one. -/
theorem map_eq_ok {f : α → β} : x.map f = .ok b ↔ ∃ a, x = .ok a ∧ f a = b := by
  cases x with
  | error e => exact iff_of_false nofun nofun
  | ok a => exact ⟨fun h => ⟨a, rfl, Except.ok.inj h⟩, fun ⟨_, ha, h⟩ => Except.ok.inj ha ▸ h ▸ rfl⟩

end Steps

end SchemaSynth
