import SchemaSynth.Proofs.ClassTables
import SchemaSynth.Proofs.Identifiers

/-! The table names that classes are given. Under the suffix policy no two classes share a name, and
a name once given stays. -/
namespace SchemaSynth.TableNames
open Identifier Text
variable {policy : CollisionPolicy} {d : Diagram} {base name id : String} {taken : List String}
  {n m : Nat} {assigned : List (String × String)} {c : ClassNode} {cs before after : List ClassNode}

section Numbers

/-- In front of the number is what was left of the base. -/
theorem toList_numbered (base : String) (n : Nat) : ∃ start,
    start <+: base.toList ∧ (numbered base n).toList = start ++ '_' :: Nat.toDigits 10 n := by
  refine ⟨takeBytes (maxBytes - byteLength ("_" ++ toString n).toList) base.toList,
    takeBytes_prefix_self _ _, ?_⟩
  simp [numbered, suffixed]

private theorem numbered_injective (h : numbered base n = numbered base m) : n = m := by
  have hdigits (n : Nat) :
      ((numbered base n).toList.reverse.takeWhile (· ≠ '_')).reverse = Nat.toDigits 10 n := by
    obtain ⟨start, _, hstart⟩ := toList_numbered base n
    have hall : ∀ c ∈ (Nat.toDigits 10 n).reverse, decide (c ≠ '_') = true := by
      intro c hc
      have hne : c ≠ '_' := by
        rintro rfl
        exact Nat.underscore_not_in_toDigits (List.mem_reverse.mp hc)
      exact decide_eq_true hne
    rw [hstart, List.reverse_append, List.reverse_cons, List.append_assoc,
      List.takeWhile_append_of_pos hall]
    simp
  have hn := congrArg (fun ds => Nat.ofDigitChars 10 ds 0) (hdigits n)
  have hm := congrArg (fun ds => Nat.ofDigitChars 10 ds 0) (hdigits m)
  rw [h, hm] at hn
  simpa using hn.symm

private theorem plain_numbered (hbase : Plain base) (n : Nat) : Plain (numbered base n) :=
  hbase.suffixed (Plain.append (by decide) (plain_toString n))

private theorem byteLength_numbered_le (base : String) (h : n < Nat.pow 2 31) :
    byteLength (numbered base n).toList ≤ maxBytes := by
  have hdigits : (Nat.toDigits 10 n).length ≤ 10 := by
    rw [Nat.length_toDigits_le_iff (by decide) (by decide)]
    exact Nat.lt_trans h (by decide)
  apply byteLength_suffixed_le
  rw [String.toList_append, byteLength_append]
  have hunderscore : byteLength "_".toList = 1 := by decide
  have hnumber : byteLength (toString n).toList = (Nat.toDigits 10 n).length := by
    simpa using byteLength_of_plain (plain_toString n).chars
  rw [hunderscore, hnumber, maxBytes]
  omega

end Numbers

/-- The first numbered name that is not taken, of one more than there are taken ones. -/
def firstFree? (base : String) (taken : List String) : Option String :=
  ((List.range' 2 (taken.length + 1)).map (numbered base)).find? fun name => !taken.contains name

private theorem firstFree?_eq_some_iff : firstFree? base taken = some name ↔ ∃ n, 2 ≤ n ∧
    n ≤ taken.length + 2 ∧ numbered base n ∉ taken ∧
    (∀ m, 2 ≤ m → m < n → numbered base m ∈ taken) ∧ numbered base n = name := by
  simp only [firstFree?, List.find?_map, Option.map_eq_some_iff, List.find?_range'_eq_some,
    List.mem_range'_1, Function.comp_apply, Bool.not_eq_true', Bool.not_not, List.contains_iff_mem,
    ← Bool.not_eq_true]
  constructor
  · rintro ⟨n, ⟨hfree, ⟨htwo, hlt⟩, hleast⟩, rfl⟩
    exact ⟨n, htwo, by omega, hfree, by simpa using hleast, rfl⟩
  · rintro ⟨n, htwo, hle, hfree, hleast, rfl⟩
    exact ⟨n, ⟨hfree, ⟨htwo, by omega⟩, by simpa using hleast⟩, rfl⟩

private theorem firstFree?_isSome (base : String) (taken : List String) :
    (firstFree? base taken).isSome = true := by
  by_contra hnone
  rw [Option.not_isSome_iff_eq_none, firstFree?, List.find?_eq_none] at hnone
  have hsub : (List.range' 2 (taken.length + 1)).map (numbered base) ⊆ taken := by
    intro name hname
    simpa using hnone name hname
  have hnodup : ((List.range' 2 (taken.length + 1)).map (numbered base)).Nodup :=
    List.Nodup.map (fun _ _ => numbered_injective) List.nodup_range'
  have hle := hnodup.length_le_of_subset hsub
  rw [List.length_map, List.length_range'] at hle
  omega

private theorem firstFree?_eq_freeName (h : base ∈ taken) :
    firstFree? base taken = some (freeName base taken) := by
  obtain ⟨name, hname⟩ := Option.isSome_iff_exists.mp (firstFree?_isSome base taken)
  have hfree : freeName base taken = (firstFree? base taken).getD base :=
    if_pos (List.contains_iff_mem.mpr h)
  rw [hfree, hname, Option.getD_some]

/-- The base if it is not given yet, else the base with the least number, from two up to a limit,
that makes a name not given yet. -/
inductive Chosen (given : String → Prop) (limit : Nat) (base : String) : String → Prop
  | base (free : ¬ given base) : Chosen given limit base base
  | numbered {n : Nat} (taken : given base) (two_le : 2 ≤ n) (le_limit : n ≤ limit)
      (free : ¬ given (numbered base n)) (least : ∀ m, 2 ≤ m → m < n → given (numbered base m)) :
      Chosen given limit base (numbered base n)

private theorem Chosen.imp {given given' : String → Prop} {limit limit' : Nat}
    (h : Chosen given limit base name) (hgiven : ∀ name, given name ↔ given' name)
    (hlimit : limit ≤ limit') : Chosen given' limit' base name := by
  cases h with
  | base free => exact .base (mt (hgiven _).mpr free)
  | numbered taken two_le le_limit free least =>
    exact .numbered ((hgiven _).mp taken) two_le (Nat.le_trans le_limit hlimit)
      (mt (hgiven _).mpr free) fun m htwo hlt => (hgiven _).mp (least m htwo hlt)

private theorem Chosen.not_given {given : String → Prop} {limit : Nat} (h : Chosen given limit base name) :
    ¬ given name := by
  cases h with
  | base free => exact free
  | numbered _ _ _ free => exact free

private theorem Chosen.plain {given : String → Prop} {limit : Nat} (h : Chosen given limit base name)
    (hbase : Plain base) : Plain name := by
  cases h with
  | base => exact hbase
  | numbered => exact plain_numbered hbase _

private theorem Chosen.byteLength_le {given : String → Prop} {limit : Nat} {name : String}
    (h : Chosen given limit (TableName.ofClassName c.name) name) (hlimit : limit < Nat.pow 2 31) :
    byteLength name.toList ≤ maxBytes := by
  cases h with
  | base => exact byteLength_truncate_le _
  | numbered _ _ le_limit => exact byteLength_numbered_le _ (Nat.lt_of_le_of_lt le_limit hlimit)

/-- The name that a search ends with is the base, or the base with the least free number. -/
theorem freeName_chosen (base : String) (taken : List String) :
    Chosen (· ∈ taken) (taken.length + 2) base (freeName base taken) := by
  by_cases hbase : base ∈ taken
  · obtain ⟨n, htwo, hle, hfree, hleast, hn⟩ :=
      firstFree?_eq_some_iff.mp (firstFree?_eq_freeName hbase)
    rw [← hn]
    exact .numbered hbase htwo hle hfree hleast
  · rw [freeName, if_neg (by simpa using hbase)]
    exact .base hbase

private theorem plain_nameFor (policy : CollisionPolicy) (assigned : List (String × String))
    (c : ClassNode) : Plain (nameFor policy assigned c) := by
  have hbase := TableName.plain_ofClassName c.name
  cases policy with
  | warn => exact hbase
  | suffix => exact (freeName_chosen _ _).plain hbase

def assignedTo (policy : CollisionPolicy) (cs : List ClassNode) : List (String × String) :=
  cs.foldl (assign policy) []

/-- One more class is assigned its name beside those of the classes before it. -/
theorem assignedTo_concat (policy : CollisionPolicy) (cs : List ClassNode) (c : ClassNode) :
    assignedTo policy (cs ++ [c]) = assign policy (assignedTo policy cs) c := by
  rw [assignedTo, List.foldl_append]
  rfl

private theorem assign_of_lookup (h : assigned.lookup c.id = none) :
    assign policy assigned c = assigned ++ [(c.id, nameFor policy assigned c)] := by
  simp [assign, h]

private theorem assignedTo_induction {P : List (String × String) → Prop} (hnil : P [])
    (hstep : ∀ assigned c, assigned.lookup c.id = none → P assigned →
      P (assigned ++ [(c.id, nameFor policy assigned c)])) (cs : List ClassNode) :
    P (assignedTo policy cs) := by
  refine List.foldlRecOn cs (assign policy) hnil fun assigned h c _ => ?_
  unfold assign
  split
  · exact h
  · rename_i hnone
    exact hstep assigned c (Option.not_isSome_iff_eq_none.mp hnone) h

private theorem self_prefix_assign (policy : CollisionPolicy) (assigned : List (String × String))
    (c : ClassNode) : assigned <+: assign policy assigned c := by
  unfold assign
  split
  · exact List.prefix_refl _
  · exact List.prefix_append _ _

private theorem assignedTo_prefix_append (policy : CollisionPolicy) (cs more : List ClassNode) :
    assignedTo policy cs <+: assignedTo policy (cs ++ more) := by
  rw [assignedTo, assignedTo, List.foldl_append]
  refine List.foldlRecOn more (assign policy) (List.prefix_refl _) fun assigned h c _ => ?_
  exact h.trans (self_prefix_assign policy assigned c)

private theorem length_assignedTo_le (policy : CollisionPolicy) (cs : List ClassNode) :
    (assignedTo policy cs).length ≤ cs.length := by
  have hassign (assigned : List (String × String)) (c : ClassNode) :
      (assign policy assigned c).length ≤ assigned.length + 1 := by
    unfold assign
    split <;> simp
  have hfoldl (cs : List ClassNode) (assigned : List (String × String)) :
      (cs.foldl (assign policy) assigned).length ≤ assigned.length + cs.length := by
    induction cs generalizing assigned with
    | nil => simp
    | cons c cs ih =>
      have := ih (assign policy assigned c)
      have := hassign assigned c
      simp only [List.foldl_cons, List.length_cons]
      omega
  simpa [assignedTo] using hfoldl cs []

private theorem get?_resolve (policy : CollisionPolicy) (d : Diagram) (id : String) :
    (resolve policy d).get? id = (assignedTo policy d.classes).lookup id := rfl

private theorem mem_of_lookup (h : assigned.lookup id = some name) : (id, name) ∈ assigned := by
  obtain ⟨_, _, hsplit, _⟩ := List.lookup_eq_some_iff.mp h
  rw [hsplit]
  exact List.mem_append_right _ List.mem_cons_self

private theorem mem_of_get?_resolve (h : (resolve policy d).get? id = some name) :
    (id, name) ∈ assignedTo policy d.classes :=
  mem_of_lookup h

private theorem assignedTo_ids_nodup (policy : CollisionPolicy) (cs : List ClassNode) :
    ((assignedTo policy cs).map (·.1)).Nodup := by
  refine assignedTo_induction (P := fun assigned => (assigned.map (·.1)).Nodup) List.nodup_nil ?_ cs
  intro assigned c hnone h
  have hnew : c.id ∉ assigned.map (·.1) := by
    intro hid
    obtain ⟨p, hp, hpid⟩ := List.mem_map.mp hid
    have hne := List.lookup_eq_none_iff.mp hnone p hp
    simp [hpid] at hne
  rw [List.map_append, List.map_singleton, ← List.concat_eq_append]
  exact List.Nodup.concat hnew h

private theorem assignedTo_names_nodup (cs : List ClassNode) :
    ((assignedTo .suffix cs).map (·.2)).Nodup := by
  refine assignedTo_induction (P := fun assigned => (assigned.map (·.2)).Nodup) List.nodup_nil ?_ cs
  intro assigned c _ h
  rw [List.map_append, List.map_singleton, ← List.concat_eq_append]
  exact List.Nodup.concat (freeName_chosen _ _).not_given h

/-- Every name that is resolved is made of plain characters. -/
theorem plain_of_get?_resolve (h : (resolve policy d).get? id = some name) : Plain name := by
  have hplain : ∀ p ∈ assignedTo policy d.classes, Plain p.2 := by
    refine assignedTo_induction (P := fun assigned => ∀ p ∈ assigned, Plain p.2) (by simp) ?_ _
    intro assigned c _ h
    rw [List.forall_mem_append, List.forall_mem_singleton]
    exact ⟨h, plain_nameFor policy assigned c⟩
  exact hplain (id, name) (mem_of_get?_resolve h)

private theorem get?_resolve_append (h : (resolve policy d).get? id = some name) (more : List ClassNode) :
    (resolve policy { d with classes := d.classes ++ more }).get? id = some name :=
  (assignedTo_prefix_append policy d.classes more).lookup_eq_some h

/-- A class is named beside the classes before it. -/
theorem get?_resolve_of_first (hd : d.classes = before ++ c :: after)
    (hfirst : ∀ b ∈ before, b.id ≠ c.id) :
    (resolve policy d).get? c.id = some (nameFor policy (assignedTo policy before) c) := by
  have hnone : (assignedTo policy before).lookup c.id = none := by
    refine get?_resolve_eq_none (d := ⟨before, []⟩) fun hid => ?_
    obtain ⟨b, hb, hbid⟩ := List.mem_map.mp hid
    exact hfirst b hb hbid
  have hnext : assignedTo policy (before ++ [c]) =
      assignedTo policy before ++ [(c.id, nameFor policy (assignedTo policy before) c)] := by
    rw [assignedTo_concat]
    exact assign_of_lookup hnone
  have hprefix := assignedTo_prefix_append policy (before ++ [c]) after
  rw [List.append_assoc, List.singleton_append, ← hd, hnext] at hprefix
  refine hprefix.lookup_eq_some ?_
  simp [List.lookup_append, hnone]

def Given (names : TableNames) (cs : List ClassNode) (name : String) : Prop :=
  ∃ b ∈ cs, names.get? b.id = some name

private theorem mem_assignedTo_iff_given (hd : d.classes = before ++ after) :
    name ∈ (assignedTo policy before).map (·.2) ↔ (resolve policy d).Given before name := by
  have hkeep {id name : String} (h : (assignedTo policy before).lookup id = some name) :
      (resolve policy d).get? id = some name := by
    rw [get?_resolve, hd]
    exact (assignedTo_prefix_append policy before after).lookup_eq_some h
  constructor
  · intro h
    obtain ⟨⟨id, name⟩, hp, rfl⟩ := List.mem_map.mp h
    obtain ⟨start, rest, hsplit⟩ := List.append_of_mem hp
    have hlookup : (assignedTo policy before).lookup id = some name := by
      refine List.lookup_eq_some_iff.mpr ⟨start, rest, hsplit, fun p hps => ?_⟩
      have hnodup := assignedTo_ids_nodup policy before
      rw [hsplit, List.map_append, List.nodup_append] at hnodup
      have hne := hnodup.2.2 p.1 (List.mem_map_of_mem hps) id (by simp)
      simpa using hne.symm
    have hid : id ∈ (⟨before, []⟩ : Diagram).ids :=
      (get?_resolve_isSome policy ⟨before, []⟩ id).mp (Option.isSome_of_eq_some hlookup)
    obtain ⟨b, hb, rfl⟩ := List.mem_map.mp hid
    exact ⟨b, hb, hkeep hlookup⟩
  · rintro ⟨b, hb, hname⟩
    obtain ⟨name', hname'⟩ := exists_get?_resolve policy (d := ⟨before, []⟩)
      (List.mem_map_of_mem (f := (·.id)) hb)
    obtain rfl := Option.some.inj (hname.symm.trans (hkeep hname'))
    exact List.mem_map.mpr ⟨(b.id, name), mem_of_lookup hname', rfl⟩

/-- The first class of an id gets the name that is chosen among those given before. -/
theorem chosen_of_first (hd : d.classes = before ++ c :: after)
    (hfirst : ∀ b ∈ before, b.id ≠ c.id) :
    ∃ name, (resolve .suffix d).get? c.id = some name ∧
      Chosen ((resolve .suffix d).Given before) (before.length + 2) (TableName.ofClassName c.name)
        name := by
  refine ⟨_, get?_resolve_of_first hd hfirst, ?_⟩
  refine (freeName_chosen _ _).imp (fun name => mem_assignedTo_iff_given hd) ?_
  rw [List.length_map]
  exact Nat.add_le_add_right (length_assignedTo_le .suffix before) 2

/-- Under the policy of suffixes no two ids share a name. -/
theorem get?_resolve_suffix_injective {id' : String} (h : (resolve .suffix d).get? id = some name)
    (h' : (resolve .suffix d).get? id' = some name) : id = id' := by
  have heq := List.inj_on_of_nodup_map (assignedTo_names_nodup d.classes) (mem_of_get?_resolve h)
    (mem_of_get?_resolve h') rfl
  exact congrArg Prod.fst heq

private theorem exists_first (h : (resolve policy d).get? id = some name) :
    ∃ before c after, d.classes = before ++ c :: after ∧ (∀ b ∈ before, b.id ≠ c.id) ∧
      c.id = id := by
  have hid := (get?_resolve_isSome policy d id).mp (Option.isSome_of_eq_some h)
  obtain ⟨c, hc, hcid⟩ := Diagram.exists_mem_firstClasses hid
  obtain ⟨before, after, hd, hfirst⟩ := Diagram.mem_firstClasses_iff_append.mp hc
  exact ⟨before, c, after, hd, hfirst, hcid⟩

/-- A name is cut to the limit, and so is its base if there is a number behind it. The bound is that of
the numbers that are tried. -/
theorem byteLength_of_get?_resolve (h : policy = .warn ∨ d.classes.length < Nat.pow 2 31 - 3)
    (hname : (resolve policy d).get? id = some name) : byteLength name.toList ≤ maxBytes := by
  obtain ⟨before, c, after, hd, hfirst, rfl⟩ := exists_first hname
  cases policy with
  | warn =>
    obtain rfl := Option.some.inj (hname.symm.trans (get?_resolve_of_first hd hfirst))
    exact byteLength_truncate_le _
  | suffix =>
    have hfew : d.classes.length < Nat.pow 2 31 - 3 := h.resolve_left nofun
    obtain ⟨name', hname', hchosen⟩ := chosen_of_first hd hfirst
    obtain rfl := Option.some.inj (hname.symm.trans hname')
    have hlength : d.classes.length = before.length + (after.length + 1) := by simp [hd]
    have hpow : Nat.pow 2 31 = 2147483648 := rfl
    exact hchosen.byteLength_le (by omega)

/-- Under the suffix policy every class id has a name, no two have the same, and none is too long. A
class has the first name that the classes before it leave, and there always is one. Classes behind
the others change no name. The bound is that of the numbers that are tried. -/
theorem suffix_names_distinct (d : Diagram) (h : d.classes.length < Nat.pow 2 31 - 3) :
    (∀ id ∈ d.ids, ∃ name, (resolve .suffix d).get? id = some name) ∧
    (∀ id id' name, (resolve .suffix d).get? id = some name →
      (resolve .suffix d).get? id' = some name → id = id') ∧
    (∀ id name, (resolve .suffix d).get? id = some name → byteLength name.toList ≤ maxBytes) ∧
    (∀ before c after, d.classes = before ++ c :: after → (∀ b ∈ before, b.id ≠ c.id) →
      ∃ name, (resolve .suffix d).get? c.id = some name ∧
        Chosen ((resolve .suffix d).Given before) (before.length + 2) (TableName.ofClassName c.name)
          name) ∧
    (∀ base taken, base ∈ taken → firstFree? base taken = some (freeName base taken)) ∧
    (∀ more id name, (resolve .suffix d).get? id = some name →
      (resolve .suffix { d with classes := d.classes ++ more }).get? id = some name) := by
  exact ⟨fun _ => exists_get?_resolve .suffix, fun _ _ _ => get?_resolve_suffix_injective,
    fun _ _ => byteLength_of_get?_resolve (Or.inr h), fun _ _ _ => chosen_of_first,
    fun _ _ => firstFree?_eq_freeName, fun more _ _ hname => get?_resolve_append hname more⟩

/-- A number is passed over that another class has in its own name. -/
def numberedByHand : Diagram where
  classes := [⟨"1", "item", [], []⟩, ⟨"2", "item_2", [], []⟩, ⟨"3", "Item", [], []⟩]
  relationships := []

/-- The number two is taken by a name of its own, so the third class gets the number three. -/
theorem numberedByHand_names_distinct :
    numberedByHand.classes.length < Nat.pow 2 31 - 3 ∧
      ∃ name, (resolve .suffix numberedByHand).get? "3" = some name ∧
        Chosen ((resolve .suffix numberedByHand).Given (numberedByHand.classes.take 2)) 4 "item"
          name ∧ name = "item_3" := by
  have hlength : numberedByHand.classes.length < Nat.pow 2 31 - 3 := by decide
  obtain ⟨_, _, _, hchosen, _, _⟩ := suffix_names_distinct numberedByHand hlength
  obtain ⟨name, hname, hc⟩ := hchosen (numberedByHand.classes.take 2) ⟨"3", "Item", [], []⟩ [] rfl
    (by decide)
  refine ⟨hlength, name, hname, hc, ?_⟩
  exact Option.some.inj (hname.symm.trans (by decide))

end SchemaSynth.TableNames
