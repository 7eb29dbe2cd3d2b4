import SchemaSynth.Proofs.Reachability

/-! Breadth-first search finds a path that is not longer than any other. The paths in the queue get longer
by the way, by one link at most, and what a shorter path leads to was seen. -/
namespace SchemaSynth.Inheritance
variable {links : Links} {start goal id x y : String} {seen path : List String}
  {queue : List (List String)} {fuel n : Nat}

inductive Leads (links : Links) (start : String) : Nat → String → Prop
  | refl : Leads links start 0 start
  | tail {n : Nat} {x y : String} (steps : Leads links start n x) (link : Linked links x y) :
      Leads links start (n + 1) y

private theorem leads_of_path (hhead : path.head? = some start) (hlast : path.getLast? = some goal)
    (hlinked : path.IsChain (Linked links)) : ∃ n, Leads links start n goal ∧ path.length = n + 1 := by
  induction path using List.reverseRecOn generalizing goal with
  | nil => cases hhead
  | append_singleton path y ih =>
    obtain rfl : y = goal := by simpa using hlast
    obtain ⟨hpath, _, hlink⟩ := List.isChain_append.mp hlinked
    cases hx : path.getLast? with
    | none =>
      obtain rfl := List.getLast?_eq_none_iff.mp hx
      obtain rfl : y = start := by simpa using hhead
      exact ⟨0, .refl, rfl⟩
    | some x =>
      have hne : path ≠ [] := by
        rintro rfl
        cases hx
      rw [List.head?_append_of_ne_nil _ hne] at hhead
      obtain ⟨n, hleads, hlength⟩ := ih hhead hx hpath
      exact ⟨n + 1, hleads.tail (hlink x hx y rfl), by rw [List.length_append, hlength]; rfl⟩

/-- What holds of the lengths of the paths in the queue while a search goes on. -/
structure Nearest (links : Links) (start : String) (queue : List (List String)) (seen : List String) :
    Prop where
  shortest : ∀ path ∈ queue, ∀ id, path.head? = some id → ∀ n, Leads links start n id →
    path.length ≤ n + 1
  sorted : queue.Pairwise fun p q => p.length ≤ q.length
  close : ∀ p ∈ queue.head?, ∀ q ∈ queue, q.length ≤ p.length + 1
  seen_of_nearer : ∀ p ∈ queue.head?, ∀ n x, Leads links start n x → n < p.length → x ∈ seen

namespace Nearest

private theorem init (links : Links) (start : String) : Nearest links start [[start]] [start] where
  shortest := by simp
  sorted := List.pairwise_singleton _ _
  close := by simp
  seen_of_nearer := by
    intro p hp n x hx hn
    obtain rfl : [start] = p := by simpa using hp
    obtain rfl : n = 0 := by simpa using hn
    cases hx
    exact List.mem_singleton_self start

private theorem length_of_mem (h : Nearest links start ((id :: path) :: queue) seen) {q : List String}
    (hq : q ∈ queue ++ (fresh seen (childrenOf links id)).map (· :: id :: path)) :
    (id :: path).length ≤ q.length ∧ q.length ≤ (id :: path).length + 1 := by
  rcases List.mem_append.mp hq with hq | hq
  · exact ⟨(List.pairwise_cons.mp h.sorted).1 q hq, h.close _ rfl q (List.mem_cons_of_mem _ hq)⟩
  · obtain ⟨y, _, rfl⟩ := List.mem_map.mp hq
    exact ⟨Nat.le_succ _, Nat.le_refl _⟩

private theorem step_shortest (h : Nearest links start ((id :: path) :: queue) seen) :
    ∀ q ∈ queue ++ (fresh seen (childrenOf links id)).map (· :: id :: path), ∀ x, q.head? = some x →
      ∀ n, Leads links start n x → q.length ≤ n + 1 := by
  intro q hq x hx n hn
  rcases List.mem_append.mp hq with hq | hq
  · exact h.shortest q (List.mem_cons_of_mem _ hq) x hx n hn
  · obtain ⟨y, hy, rfl⟩ := List.mem_map.mp hq
    obtain rfl : y = x := Option.some.inj hx
    have hfar : ¬ n < (id :: path).length := fun hlt =>
      (mem_fresh.mp hy).2 (h.seen_of_nearer _ rfl n y hn hlt)
    rw [List.length_cons]
    omega

private theorem step_sorted (h : Nearest links start ((id :: path) :: queue) seen) :
    (queue ++ (fresh seen (childrenOf links id)).map (· :: id :: path)).Pairwise
      fun p q => p.length ≤ q.length := by
  refine List.pairwise_append.mpr ⟨(List.pairwise_cons.mp h.sorted).2, ?_, ?_⟩
  · exact List.pairwise_map.mpr (List.pairwise_of_forall fun _ _ => Nat.le_refl _)
  · intro p hp q hq
    obtain ⟨y, _, rfl⟩ := List.mem_map.mp hq
    exact (h.length_of_mem (List.mem_append_left _ hp)).2

private theorem step (h : Nearest links start ((id :: path) :: queue) seen)
    (hs : Searching links start goal ((id :: path) :: queue) seen) (hid : id ≠ goal) :
    Nearest links start (queue ++ (fresh seen (childrenOf links id)).map (· :: id :: path))
      ((fresh seen (childrenOf links id)).reverse ++ seen) where
  shortest := h.step_shortest
  sorted := h.step_sorted
  close := by
    intro p hp q hq
    have hlow := (h.length_of_mem (List.mem_of_mem_head? hp)).1
    have hhigh := (h.length_of_mem hq).2
    omega
  seen_of_nearer := by
    intro p hp n x hn hlt
    have hp' := List.mem_of_mem_head? hp
    have hhigh := (h.length_of_mem hp').2
    by_cases hnear : n < (id :: path).length
    · exact List.mem_append_right _ (h.seen_of_nearer _ rfl n x hn hnear)
    cases hn with
    | refl => exact List.mem_append_right _ hs.start_mem
    | @tail n x' _ hx' hlink =>
      have hseen : x' ∈ seen := h.seen_of_nearer _ rfl n x' hx' (by omega)
      rcases (hs.step hid).left x' (List.mem_append_right _ hseen) with ⟨q, hq, hhead⟩ | ⟨_, hchildren⟩
      · have hqn := h.step_shortest q hq x' hhead n hx'
        have hpq : p.length ≤ q.length := by
          obtain ⟨rest, hrest⟩ := List.head?_eq_some_iff.mp hp
          have hsorted := h.step_sorted
          rw [hrest] at hq hsorted
          rcases List.mem_cons.mp hq with rfl | hq
          · exact Nat.le_refl _
          · exact (List.pairwise_cons.mp hsorted).1 q hq
        omega
      · exact hchildren x hlink

end Nearest

private theorem length_le_of_search (h : Nearest links start queue seen)
    (hs : Searching links start goal queue seen)
    (hsearch : search links goal fuel queue seen = some path) (hn : Leads links start n goal) :
    path.length ≤ n + 1 := by
  induction fuel generalizing queue seen with
  | zero => cases hsearch
  | succ fuel ih =>
    match queue with
    | [] => cases hsearch
    | [] :: queue =>
      obtain ⟨_, _, hroute⟩ := hs.routes [] List.mem_cons_self
      cases hroute.head
    | (id :: way) :: queue =>
      rw [search] at hsearch
      split at hsearch
      · rename_i hid
        obtain rfl := Option.some.inj hsearch
        rw [List.length_reverse]
        exact h.shortest _ List.mem_cons_self id rfl n (hid ▸ hn)
      · rename_i hid
        exact ih (h.step hs hid) (hs.step hid) hsearch

/-- No path is shorter than the one that is found. -/
theorem length_le_of_path? (h : path? links start goal = some path) {other : List String}
    (hhead : other.head? = some start) (hlast : other.getLast? = some goal)
    (hlinked : other.IsChain (Linked links)) : path.length ≤ other.length := by
  obtain ⟨n, hleads, hlength⟩ := leads_of_path hhead hlast hlinked
  rw [hlength]
  exact length_le_of_search (.init links start) (.init links start goal) h hleads

end SchemaSynth.Inheritance
