import SchemaSynth.Diagnosis.Inheritance
import Mathlib.Data.List.Chain
import Mathlib.Data.List.Nodup
import Mathlib.Logic.Relation

/-! Breadth-first search along links finds a path exactly if there is one. -/
namespace SchemaSynth.Inheritance
variable {links : Links} {start goal id x y : String} {ids seen path : List String}
  {queue : List (List String)} {fuel : Nat}

def Linked (links : Links) (parent child : String) : Prop :=
  (parent, child) ∈ links

private theorem mem_childrenOf : y ∈ childrenOf links x ↔ Linked links x y := by
  simp [childrenOf, Linked]

/-- The fresh children are those not seen before. -/
theorem mem_fresh : x ∈ fresh seen ids ↔ x ∈ ids ∧ x ∉ seen := by
  induction ids generalizing seen with
  | nil => simp [fresh]
  | cons id ids ih =>
    rw [fresh]
    split
    · rename_i hid
      have hid : id ∈ seen := List.contains_iff_mem.mp hid
      rw [ih, List.mem_cons]
      constructor
      · rintro ⟨hx, hn⟩
        exact ⟨Or.inr hx, hn⟩
      · rintro ⟨rfl | hx, hn⟩
        · exact absurd hid hn
        · exact ⟨hx, hn⟩
    · rename_i hid
      have hid : id ∉ seen := fun h => hid (List.contains_iff_mem.mpr h)
      rw [List.mem_cons, ih, List.mem_cons, List.mem_cons]
      by_cases hx : x = id
      · simp [hx, hid]
      · simp [hx]

private theorem fresh_nodup (seen ids : List String) : (fresh seen ids).Nodup := by
  induction ids generalizing seen with
  | nil => exact List.nodup_nil
  | cons id ids ih =>
    rw [fresh]
    split
    · exact ih seen
    · refine List.nodup_cons.mpr ⟨fun h => ?_, ih _⟩
      exact (mem_fresh.mp h).2 List.mem_cons_self

/-- A path along links from one class to another that comes to no class twice. -/
structure Route (links : Links) (start goal : String) (path : List String) : Prop where
  head : path.head? = some start
  last : path.getLast? = some goal
  linked : path.IsChain (Linked links)
  nodup : path.Nodup

private theorem route_singleton (links : Links) (start : String) : Route links start start [start] :=
  ⟨rfl, rfl, List.isChain_singleton start, List.nodup_singleton start⟩

private theorem Route.concat (h : Route links start x path) (hxy : Linked links x y) (hy : y ∉ path) :
    Route links start y (path ++ [y]) := by
  have hne : path ≠ [] := by
    rintro rfl
    cases h.head
  refine ⟨?_, by simp, ?_, ?_⟩
  · rw [List.head?_append_of_ne_nil _ hne, h.head]
  · refine List.isChain_append.mpr ⟨h.linked, List.isChain_singleton y, ?_⟩
    intro last hlast first hfirst
    obtain rfl : x = last := Option.some.inj (h.last.symm.trans hlast)
    obtain rfl : y = first := Option.some.inj hfirst
    exact hxy
  · rw [← List.concat_eq_append]
    exact h.nodup.concat hy

/-- Along a path the goal is reached. -/
theorem Route.reaches (h : Route links start goal path) :
    Relation.ReflTransGen (Linked links) start goal := by
  cases path with
  | nil => cases h.head
  | cons id path =>
    obtain rfl : id = start := Option.some.inj h.head
    have hlast := h.last
    rw [List.getLast?_eq_some_getLast (List.cons_ne_nil _ _)] at hlast
    exact List.relationReflTransGen_of_exists_isChain_cons path h.linked (Option.some.inj hlast)

/-- What holds of the queue and of the classes seen while a search goes on. A class that was seen is
either next to be left from the queue, or was left: then it is not the goal and its children were
seen. -/
structure Searching (links : Links) (start goal : String) (queue : List (List String))
    (seen : List String) : Prop where
  start_mem : start ∈ seen
  nodup : seen.Nodup
  bounded : seen ⊆ start :: links.map (·.2)
  routes : ∀ path ∈ queue, path ⊆ seen ∧ ∃ id, Route links start id path.reverse
  left : ∀ x ∈ seen, (∃ path ∈ queue, path.head? = some x) ∨
    x ≠ goal ∧ ∀ y, Linked links x y → y ∈ seen

namespace Searching

/-- A search starts with the path of its start alone. -/
theorem init (links : Links) (start goal : String) : Searching links start goal [[start]] [start] where
  start_mem := List.mem_singleton_self start
  nodup := List.nodup_singleton start
  bounded := by simp
  routes := by simpa using ⟨start, route_singleton links start⟩
  left := by simp

/-- No more classes are seen than there are links, beside the start. -/
theorem length_le (h : Searching links start goal queue seen) : seen.length ≤ links.length + 1 := by
  simpa using h.nodup.length_le_of_subset h.bounded

private theorem head_route (h : Searching links start goal ((id :: path) :: queue) seen) :
    Route links start id (id :: path).reverse := by
  obtain ⟨_, id', hroute⟩ := h.routes _ List.mem_cons_self
  have hlast : (id :: path).reverse.getLast? = some id := by simp
  obtain rfl := Option.some.inj (hlast.symm.trans hroute.last)
  exact hroute

/-- A class that is not the goal is left, and its children not seen before enter the queue. -/
theorem step (h : Searching links start goal ((id :: path) :: queue) seen) (hid : id ≠ goal) :
    Searching links start goal
      (queue ++ (fresh seen (childrenOf links id)).map (· :: id :: path))
      ((fresh seen (childrenOf links id)).reverse ++ seen) where
  start_mem := List.mem_append_right _ h.start_mem
  nodup := by
    refine List.Nodup.append (List.nodup_reverse.mpr (fresh_nodup _ _)) h.nodup ?_
    intro y hy hseen
    exact (mem_fresh.mp (List.mem_reverse.mp hy)).2 hseen
  bounded := by
    refine List.append_subset.mpr ⟨fun y hy => ?_, h.bounded⟩
    have hy := mem_childrenOf.mp (mem_fresh.mp (List.mem_reverse.mp hy)).1
    exact List.mem_cons_of_mem _ (List.mem_map.mpr ⟨(id, y), hy, rfl⟩)
  routes := by
    obtain ⟨hsub, _⟩ := h.routes _ List.mem_cons_self
    intro q hq
    rcases List.mem_append.mp hq with hq | hq
    · obtain ⟨hqsub, hroute⟩ := h.routes q (List.mem_cons_of_mem _ hq)
      exact ⟨List.subset_append_of_subset_right _ hqsub, hroute⟩
    · obtain ⟨y, hy, rfl⟩ := List.mem_map.mp hq
      obtain ⟨hchild, hnew⟩ := mem_fresh.mp hy
      refine ⟨List.cons_subset.mpr ⟨?_, List.subset_append_of_subset_right _ hsub⟩, y, ?_⟩
      · exact List.mem_append_left _ (List.mem_reverse.mpr hy)
      · rw [List.reverse_cons]
        refine h.head_route.concat (mem_childrenOf.mp hchild) fun hmem => hnew ?_
        exact hsub (List.mem_reverse.mp hmem)
  left := by
    intro x hx
    rcases List.mem_append.mp hx with hx | hx
    · exact Or.inl ⟨x :: id :: path, List.mem_append_right _
        (List.mem_map.mpr ⟨x, List.mem_reverse.mp hx, rfl⟩), rfl⟩
    rcases h.left x hx with ⟨q, hq, hhead⟩ | ⟨hne, hchildren⟩
    · rcases List.mem_cons.mp hq with rfl | hq
      · obtain rfl : id = x := Option.some.inj hhead
        refine Or.inr ⟨hid, fun y hy => ?_⟩
        by_cases hseen : y ∈ seen
        · exact List.mem_append_right _ hseen
        · exact List.mem_append_left _
            (List.mem_reverse.mpr (mem_fresh.mpr ⟨mem_childrenOf.mpr hy, hseen⟩))
      · exact Or.inl ⟨q, List.mem_append_left _ hq, hhead⟩
    · exact Or.inr ⟨hne, fun y hy => List.mem_append_right _ (hchildren y hy)⟩

private theorem not_reaches (h : Searching links start goal [] seen) :
    ¬ Relation.ReflTransGen (Linked links) start goal := by
  have hleft (x : String) (hx : x ∈ seen) : x ≠ goal ∧ ∀ y, Linked links x y → y ∈ seen := by
    rcases h.left x hx with ⟨path, hpath, _⟩ | hx
    · cases hpath
    · exact hx
  have hseen : ∀ x, Relation.ReflTransGen (Linked links) start x → x ∈ seen := by
    intro x hx
    induction hx with
    | refl => exact h.start_mem
    | tail _ hxy ih => exact (hleft _ ih).2 _ hxy
  intro hreaches
  exact (hleft goal (hseen goal hreaches)).1 rfl

end Searching

private theorem route_of_search (h : Searching links start goal queue seen)
    (hsearch : search links goal fuel queue seen = some path) : Route links start goal path := by
  induction fuel generalizing queue seen with
  | zero => cases hsearch
  | succ fuel ih =>
    match queue with
    | [] => cases hsearch
    | [] :: queue =>
      obtain ⟨_, _, hroute⟩ := h.routes [] List.mem_cons_self
      cases hroute.head
    | (id :: way) :: queue =>
      rw [search] at hsearch
      split at hsearch
      · rename_i hid
        obtain rfl := Option.some.inj hsearch
        exact hid ▸ h.head_route
      · rename_i hid
        exact ih (h.step hid) hsearch

private theorem not_reaches_of_search (h : Searching links start goal queue seen)
    (hfuel : queue.length + (links.length + 1) ≤ fuel + seen.length)
    (hsearch : search links goal fuel queue seen = none) :
    ¬ Relation.ReflTransGen (Linked links) start goal := by
  induction fuel generalizing queue seen with
  | zero =>
    have := h.length_le
    obtain rfl : queue = [] := List.eq_nil_of_length_eq_zero (by omega)
    exact h.not_reaches
  | succ fuel ih =>
    match queue with
    | [] => exact h.not_reaches
    | [] :: queue =>
      obtain ⟨_, _, hroute⟩ := h.routes [] List.mem_cons_self
      cases hroute.head
    | (id :: way) :: queue =>
      rw [search] at hsearch
      split at hsearch
      · cases hsearch
      · rename_i hid
        refine ih (h.step hid) ?_ hsearch
        simp only [List.length_append, List.length_map, List.length_reverse,
          List.length_cons] at hfuel ⊢
        omega

/-- What a search returns is a path. -/
theorem route_of_path? (h : path? links start goal = some path) : Route links start goal path :=
  route_of_search (.init links start goal) h

/-- There is a path if and only if the start leads to the goal. -/
theorem path?_isSome_iff :
    (path? links start goal).isSome = true ↔ Relation.ReflTransGen (Linked links) start goal := by
  constructor
  · intro h
    obtain ⟨path, hpath⟩ := Option.isSome_iff_exists.mp h
    exact (route_of_path? hpath).reaches
  · intro h
    by_contra hnone
    refine not_reaches_of_search (.init links start goal) ?_ (Option.not_isSome_iff_eq_none.mp hnone) h
    simp only [List.length_cons, List.length_nil]
    omega

end SchemaSynth.Inheritance
