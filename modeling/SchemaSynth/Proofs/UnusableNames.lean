import SchemaSynth.Proofs.AnnouncedRenames

/-! Table names that cannot be used, and the classes that are found fault with. A name is checked as a
class asks for it, and is used after it was cut to the limit and a number may have been put behind it.
Neither makes a fault that was not there. -/
namespace SchemaSynth
open Identifier Text

/-- The faults are the same but for the names that they are about. -/
inductive NameFault.SameKind : NameFault → NameFault → Prop
  | empty : SameKind .empty .empty
  | leadingDigit (name name' : String) : SameKind (.leadingDigit name) (.leadingDigit name')
  | reservedWord (word word' : String) : SameKind (.reservedWord word) (.reservedWord word')

private theorem NameFault.SameKind.trans {fault fault' fault'' : NameFault} (h : fault.SameKind fault')
    (h' : fault'.SameKind fault'') : fault.SameKind fault'' := by
  cases h with
  | empty => exact h'
  | leadingDigit => cases h' with | leadingDigit => exact .leadingDigit _ _
  | reservedWord => cases h' with | reservedWord => exact .reservedWord _ _

section Rel
variable {α β : Type} {R : α → β → Prop} {a? : Option α} {b? : Option β} {a : α} {b : β}

private theorem exists_left_of_rel (h : Option.Rel R a? b?) (hb : b? = some b) :
    ∃ a, a? = some a ∧ R a b := by
  subst hb
  cases h with
  | some h => exact ⟨_, rfl, h⟩

private theorem exists_right_of_rel (h : Option.Rel R a? b?) (ha : a? = some a) :
    ∃ b, b? = some b ∧ R a b := by
  subst ha
  cases h with
  | some h => exact ⟨_, rfl, h⟩

end Rel

namespace TableName
open TableNames
variable {c : Char} {cs : List Char} {s t word base name : String} {fault : NameFault} {n : Nat}

section ReservedWords

private theorem length_lt_of_isReserved (h : isReserved word = true) : word.toList.length < maxBytes := by
  have hwords : ∀ w ∈ reservedWords, w.toList.length < maxBytes := by decide
  have hlength := hwords _ (List.contains_iff_mem.mp h)
  simpa [lowered] using hlength

private theorem isReserved_of_digit (hc : c ∈ word.toList) (hdigit : c.isDigit = true) :
    isReserved word = false := by
  have hwords : ∀ w ∈ reservedWords, w.toList.all (fun c => !c.isDigit) = true := by decide
  have hlower : (lower c).isDigit = true :=
    of_isWord (P := fun c => c.isDigit = true → (lower c).isDigit = true) (by decide)
      (by simp [isWord, Char.isAlphanum, hdigit]) hdigit
  have hmem : lower c ∈ (lowered word).toList := by
    rw [lowered, String.toList_ofList]
    exact List.mem_map_of_mem hc
  rw [isReserved, Bool.eq_false_iff]
  intro hreserved
  have hnone := List.all_eq_true.mp (hwords _ (List.contains_iff_mem.mp hreserved)) _ hmem
  simp [hlower] at hnone

private theorem isReserved_truncate (h : Plain s) : isReserved (Identifier.truncate s) = isReserved s := by
  by_cases hshort : s.toList.length ≤ maxBytes
  · have hsame : Identifier.truncate s = s := by
      rw [← String.toList_inj, toList_truncate_of_plain h, List.take_of_length_le hshort]
    rw [hsame]
  · have hcut : (Identifier.truncate s).toList.length = maxBytes := by
      rw [toList_truncate_of_plain h, List.length_take]
      omega
    rw [Bool.eq_iff_iff]
    exact iff_of_false (fun h => absurd (length_lt_of_isReserved h) (by omega))
      fun h => absurd (length_lt_of_isReserved h) (by omega)

end ReservedWords

section Faults

private theorem fault?_of_cons (h : name.toList = c :: cs) : fault? name =
    if c.isDigit then some (.leadingDigit name)
    else if isReserved name then some (.reservedWord name) else none := by
  simp only [fault?, h]

private theorem fault?_sameKind (hhead : s.toList.head? = t.toList.head?)
    (hreserved : isReserved s = isReserved t) :
    Option.Rel NameFault.SameKind (fault? s) (fault? t) := by
  cases hs : s.toList with
  | nil =>
    have ht : t.toList = [] := by simpa [hs] using hhead.symm
    simp only [fault?, hs, ht]
    exact .some .empty
  | cons c cs =>
    obtain ⟨cs', ht⟩ : ∃ cs', t.toList = c :: cs' :=
      List.head?_eq_some_iff.mp (by rw [← hhead, hs, List.head?_cons])
    rw [fault?_of_cons hs, fault?_of_cons ht, hreserved]
    split
    · exact .some (.leadingDigit s t)
    · split
      · exact .some (.reservedWord s t)
      · exact .none

private theorem fault?_ofClassName (name : String) :
    Option.Rel NameFault.SameKind (fault? (sanitize name)) (fault? (ofClassName name)) := by
  have hplain := plain_sanitize name
  refine fault?_sameKind ?_ (isReserved_truncate hplain).symm
  rw [ofClassName, toList_truncate_of_plain hplain, List.head?_take]
  rfl

private theorem fault?_numbered (h : fault? (numbered base n) = some fault) :
    ∃ fault', fault? base = some fault' ∧ fault'.SameKind fault := by
  obtain ⟨start, hstart, hname⟩ := toList_numbered base n
  have hreserved : isReserved (numbered base n) = false := by
    obtain ⟨digit, hdigit⟩ := List.exists_mem_of_ne_nil _ (Nat.toDigits_ne_nil (b := 10) (n := n))
    exact isReserved_of_digit (by simp [hname, hdigit])
      (Nat.isDigit_of_mem_toDigits (by decide) (by decide) hdigit)
  cases start with
  | nil =>
    rw [fault?_of_cons hname, hreserved] at h
    simp at h
  | cons c start =>
    obtain ⟨rest, hbase⟩ := hstart
    rw [fault?_of_cons hname, hreserved] at h
    rw [fault?_of_cons hbase.symm]
    by_cases hc : c.isDigit = true
    · rw [if_pos hc] at h ⊢
      rw [← Option.some.inj h]
      exact ⟨_, rfl, .leadingDigit base (numbered base n)⟩
    · rw [if_neg hc] at h
      cases h

private theorem usable_ofClassName (h : fault? (sanitize s) = none) : fault? (ofClassName s) = none := by
  rw [Option.eq_none_iff_forall_ne_some]
  intro fault hfault
  obtain ⟨fault', hasked, _⟩ := exists_left_of_rel (fault?_ofClassName s) hfault
  simp [h] at hasked

private theorem usable_numbered (h : fault? base = none) (n : Nat) : fault? (numbered base n) = none := by
  rw [Option.eq_none_iff_forall_ne_some]
  intro fault hfault
  obtain ⟨fault', hbase, _⟩ := fault?_numbered hfault
  simp [h] at hbase

private theorem fault?_of_chosen {given : String → Prop} {limit : Nat}
    (hname : Chosen given limit (ofClassName s) name) (h : fault? name = some fault) :
    ∃ fault', fault? (sanitize s) = some fault' ∧ fault'.SameKind fault := by
  cases hname with
  | base => exact exists_left_of_rel (fault?_ofClassName s) h
  | numbered =>
    obtain ⟨fault', hbase, hnumbered⟩ := fault?_numbered h
    obtain ⟨fault'', hasked, hcut⟩ := exists_left_of_rel (fault?_ofClassName s) hbase
    exact ⟨fault'', hasked, hcut.trans hnumbered⟩

private theorem fault?_nameFor {policy : CollisionPolicy} {assigned : List (String × String)} {c : ClassNode}
    (h : fault? (nameFor policy assigned c) = some fault) :
    ∃ fault', fault? (sanitize c.name) = some fault' ∧ fault'.SameKind fault := by
  cases policy with
  | warn => exact exists_left_of_rel (fault?_ofClassName c.name) h
  | suffix => exact fault?_of_chosen (freeName_chosen _ _) h

end Faults

end TableName

namespace Diagram
open TableNames TableName
variable {d : Diagram} {n : InvalidName}

private theorem mem_invalidNames : n ∈ d.invalidNames ↔ ∃ c ∈ d.classes, ∃ fault,
    fault? (sanitize c.name) = some fault ∧ ⟨c.id, sanitize c.name, fault⟩ = n := by
  simp only [invalidNames, List.mem_filterMap, Option.map_eq_some_iff]

/-- A class is found fault with if the name of its table cannot be used, and with the same kind of
fault. Under the warn policy it is found fault with only then. What can be used is not spoilt by a cut
or by a number. -/
theorem unusable_names_reported (d : Diagram) (distinct : d.ids.Nodup) :
    (∀ policy, ∀ c ∈ d.classes, ∃ name, (resolve policy d).get? c.id = some name ∧
      ∀ fault, fault? name = some fault →
        ∃ n ∈ d.invalidNames, n.classId = c.id ∧ n.fault.SameKind fault) ∧
    (∀ n ∈ d.invalidNames, ∃ name fault, (resolve .warn d).get? n.classId = some name ∧
      fault? name = some fault ∧ n.fault.SameKind fault) ∧
    (∀ name, fault? (sanitize name) = none →
      fault? (ofClassName name) = none ∧ ∀ k, fault? (numbered (ofClassName name) k) = none) := by
  have hnamed (policy : CollisionPolicy) {c : ClassNode} (hc : c ∈ d.classes) :
      ∃ assigned, (resolve policy d).get? c.id = some (nameFor policy assigned c) := by
    obtain ⟨before, after, hd⟩ := List.append_of_mem hc
    exact ⟨_, get?_resolve_of_first hd (ids_ne_of_split distinct hd)⟩
  refine ⟨fun policy c hc => ?_, fun n hn => ?_, fun name husable => ?_⟩
  · obtain ⟨assigned, hname⟩ := hnamed policy hc
    refine ⟨_, hname, fun fault hfault => ?_⟩
    obtain ⟨fault', hasked, hkind⟩ := fault?_nameFor hfault
    exact ⟨_, mem_invalidNames.mpr ⟨c, hc, fault', hasked, rfl⟩, rfl, hkind⟩
  · obtain ⟨c, hc, fault, hasked, rfl⟩ := mem_invalidNames.mp hn
    obtain ⟨_, hname⟩ := hnamed .warn hc
    obtain ⟨fault', hgiven, hkind⟩ := exists_right_of_rel (fault?_ofClassName c.name) hasked
    exact ⟨_, fault', hname, hgiven, hkind⟩
  · exact ⟨usable_ofClassName husable, usable_numbered (usable_ofClassName husable)⟩

/-- Two reserved words and two names that start with a digit. Behind a number the reserved word can be
used. -/
def hardNames : Diagram where
  classes := [⟨"1", "Order", [], []⟩, ⟨"2", "order", [], []⟩, ⟨"3", "2FA", [], []⟩, ⟨"4", "2fa", [], []⟩]
  relationships := []

example : hardNames.classes.map (fun c => (resolve .suffix hardNames).get? c.id) =
    [some "order", some "order_2", some "2fa", some "2fa_2"] ∧ hardNames.invalidNames.length = 4 := by
  decide

/-- A digit in front and a reserved word are reported, and a reserved word with a number behind it can be
used. -/
theorem hardNames_reported :
    hardNames.ids.Nodup ∧
    (∃ n ∈ hardNames.invalidNames, n.classId = "4" ∧ n.fault.SameKind (.leadingDigit "2fa_2")) ∧
    (∃ name fault, (resolve .warn hardNames).get? "2" = some name ∧ fault? name = some fault ∧
      (NameFault.reservedWord "order").SameKind fault) ∧
    fault? (numbered (ofClassName "orders") 2) = none := by
  have distinct : hardNames.ids.Nodup := by decide
  obtain ⟨hgiven, hwarn, husable⟩ := unusable_names_reported hardNames distinct
  refine ⟨distinct, ?_, hwarn ⟨"2", "order", .reservedWord "order"⟩ (by decide),
    (husable "orders" (by decide)).2 2⟩
  obtain ⟨name, hname, hreported⟩ := hgiven .suffix ⟨"4", "2fa", [], []⟩ (by decide)
  obtain rfl : name = "2fa_2" := Option.some.inj (hname.symm.trans (by decide))
  exact hreported (.leadingDigit "2fa_2") (by decide)

end Diagram
end SchemaSynth
