import SchemaSynth.Proofs.Reachability

/-! Breadth-first search with two loops: one that notes the parent of each class where it is first seen,
and one that goes back from the goal over the parents. Both end, and they find what the search with whole
paths in the queue finds. -/
namespace SchemaSynth

/-- A loop ends after a number of rounds: then there is no next state. -/
inductive Ends {α : Type} (next? : α → Option α) : Nat → α → α → Prop
  | done {x : α} (last : next? x = none) : Ends next? 0 x x
  | round {n : Nat} {x y z : α} (next : next? x = some y) (rest : Ends next? n y z) :
      Ends next? (n + 1) x z

namespace Inheritance
variable {links : Links} {start goal id x : String} {seen path acc : List String}
  {queue : List (List String)} {parents : List (String × String)} {fuel : Nat}

structure Frontier where
  queue : List String
  seen : List String
  parents : List (String × String)

namespace Frontier

def init (id : String) : Frontier := ⟨[id], [id], []⟩

/-- The classes are left in turn. The loop ends at the goal, or where there is none to be left. -/
def next? (links : Links) (goal : String) (f : Frontier) : Option Frontier :=
  match f.queue with
  | [] => none
  | id :: queue =>
    if id = goal then none
    else
      let found := fresh f.seen (childrenOf links id)
      some ⟨queue ++ found, found.reverse ++ f.seen, found.reverse.map (·, id) ++ f.parents⟩

end Frontier

/-- From a class back to its parent. What was passed comes behind the class. -/
def retrace? (parents : List (String × String)) :
    Option String × List String → Option (Option String × List String)
  | (none, _) => none
  | (some id, path) => some (parents.lookup id, id :: path)

/-- The two loops end with a path to the goal, or the first one ends with nothing left. -/
def FoundByLoops (links : Links) (start goal : String) (result : Option (List String)) : Prop :=
  ∃ rounds last, rounds ≤ links.length + 1 ∧
    Ends (Frontier.next? links goal) rounds (.init start) last ∧
    match result with
    | some path => last.queue.head? = some goal ∧
        Ends (retrace? last.parents) path.length (some goal, []) (none, path)
    | none => last.queue = []

inductive Traced (parents : List (String × String)) : List String → Prop
  | root {id : String} (none : parents.lookup id = none) : Traced parents [id]
  | child {id parent : String} {path : List String} (parent_of : parents.lookup id = some parent)
      (rest : Traced parents (parent :: path)) : Traced parents (id :: parent :: path)

private theorem Traced.ends (h : Traced parents (id :: path)) (acc : List String) :
    Ends (retrace? parents) (path.length + 1) (some id, acc) (none, (id :: path).reverse ++ acc) := by
  generalize hway : id :: path = way at h
  induction h generalizing id path acc with
  | root hnone =>
    obtain ⟨rfl, rfl⟩ := List.cons.inj hway
    exact .round (congrArg (fun parent => some (parent, id :: acc)) hnone) (.done rfl)
  | @child id' parent way hparent _ ih =>
    obtain ⟨rfl, rfl⟩ := List.cons.inj hway
    refine .round (congrArg (fun parent => some (parent, id :: acc)) hparent) ?_
    simpa using ih (id :: acc) rfl

private theorem Traced.extend {more : List (String × String)} (h : Traced parents path)
    (hmore : ∀ x ∈ path, more.lookup x = none) : Traced (more ++ parents) path := by
  have hlookup (x : String) (hx : more.lookup x = none) :
      (more ++ parents).lookup x = parents.lookup x := by
    rw [List.lookup_append, hx, Option.none_or]
  induction h with
  | root hnone =>
    refine .root ?_
    rw [hlookup _ (hmore _ List.mem_cons_self), hnone]
  | child hparent _ ih =>
    obtain ⟨hid, hrest⟩ := List.forall_mem_cons.mp hmore
    refine .child ?_ (ih hrest)
    rw [hlookup _ hid, hparent]

/-- The same search, with the paths in the queue and with the parents. No class has a parent before it is
seen, so the start never has one. -/
structure Tracks (queue : List (List String)) (seen : List String) (f : Frontier) : Prop where
  heads : f.queue.map some = queue.map List.head?
  seen_eq : f.seen = seen
  traced : ∀ path ∈ queue, Traced f.parents path

private theorem tracks_init (start : String) : Tracks [[start]] [start] (.init start) where
  heads := rfl
  seen_eq := rfl
  traced := List.forall_mem_singleton.mpr (.root rfl)

private theorem lookup_found (ids : List String) (id x : String) :
    (ids.map (·, id)).lookup x = if x ∈ ids then some id else none := by
  induction ids with
  | nil => rfl
  | cons y ids ih =>
    rw [List.map_cons, List.lookup_cons, ih]
    by_cases hxy : x = y
    · simp [hxy]
    · simp [hxy, beq_false_of_ne hxy]

private theorem Tracks.exists_queue {f : Frontier} (h : Tracks ((id :: path) :: queue) seen f) :
    ∃ ids, f.queue = id :: ids ∧ ids.map some = queue.map List.head? := by
  have hheads := h.heads
  cases hqueue : f.queue with
  | nil =>
    rw [hqueue] at hheads
    cases hheads
  | cons id' ids =>
    rw [hqueue, List.map_cons, List.map_cons] at hheads
    obtain ⟨hhead, htail⟩ := List.cons.inj hheads
    obtain rfl : id' = id := Option.some.inj hhead
    exact ⟨ids, rfl, htail⟩

private theorem Tracks.step {f : Frontier} (h : Tracks ((id :: path) :: queue) seen f)
    (hs : Searching links start goal ((id :: path) :: queue) seen) (hid : id ≠ goal) :
    ∃ f', f.next? links goal = some f' ∧
      Tracks (queue ++ (fresh seen (childrenOf links id)).map (· :: id :: path))
        ((fresh seen (childrenOf links id)).reverse ++ seen) f' := by
  obtain ⟨ids, hids, hqueue⟩ := h.exists_queue
  have hold : ∀ q ∈ (id :: path) :: queue, ∀ x ∈ q,
      ((fresh seen (childrenOf links id)).reverse.map (·, id)).lookup x = none := by
    intro q hq x hx
    rw [lookup_found, if_neg]
    intro hfresh
    exact (mem_fresh.mp (List.mem_reverse.mp hfresh)).2 ((hs.routes q hq).1 hx)
  obtain ⟨hpath, hrest⟩ := List.forall_mem_cons.mp h.traced
  obtain ⟨hpathold, hrestold⟩ := List.forall_mem_cons.mp hold
  refine ⟨_, by rw [Frontier.next?, hids]; exact if_neg hid, ?_, ?_, ?_⟩
  · rw [List.map_append, List.map_append, hqueue, h.seen_eq, List.map_map]
    rfl
  · rw [h.seen_eq]
  · rw [h.seen_eq]
    refine List.forall_mem_append.mpr ⟨fun q hq => (hrest q hq).extend (hrestold q hq), ?_⟩
    refine List.forall_mem_map.mpr fun y hy => .child ?_ (hpath.extend hpathold)
    rw [List.lookup_append, lookup_found, if_pos (List.mem_reverse.mpr hy), Option.some_or]

private theorem Tracks.ends {f : Frontier} (h : Tracks ((goal :: path) :: queue) seen f) (links : Links) :
    f.next? links goal = none ∧ f.queue.head? = some goal ∧
      Ends (retrace? f.parents) (goal :: path).reverse.length (some goal, [])
        (none, (goal :: path).reverse) := by
  obtain ⟨ids, hids, _⟩ := h.exists_queue
  have hback := (h.traced _ List.mem_cons_self).ends []
  rw [List.append_nil] at hback
  rw [Frontier.next?, hids, List.length_reverse]
  exact ⟨if_pos rfl, rfl, hback⟩

private theorem exists_ends_of_search {f : Frontier} (h : Tracks queue seen f)
    (hs : Searching links start goal queue seen)
    (hfuel : queue.length + (links.length + 1) ≤ fuel + seen.length) :
    ∃ rounds last, rounds + seen.length ≤ queue.length + (links.length + 1) ∧
      Ends (Frontier.next? links goal) rounds f last ∧
      match search links goal fuel queue seen with
      | some path => last.queue.head? = some goal ∧
          Ends (retrace? last.parents) path.length (some goal, []) (none, path)
      | none => last.queue = [] := by
  have hseen := hs.length_le
  induction fuel generalizing queue seen f with
  | zero =>
    obtain rfl : queue = [] := List.eq_nil_of_length_eq_zero (by omega)
    have hempty : f.queue = [] := List.map_eq_nil_iff.mp h.heads
    exact ⟨0, f, by omega, .done (by rw [Frontier.next?, hempty]), hempty⟩
  | succ fuel ih =>
    match queue with
    | [] =>
      have hempty : f.queue = [] := List.map_eq_nil_iff.mp h.heads
      exact ⟨0, f, by omega, .done (by rw [Frontier.next?, hempty]), hempty⟩
    | [] :: queue =>
      obtain ⟨_, _, hroute⟩ := hs.routes [] List.mem_cons_self
      cases hroute.head
    | (id :: way) :: queue =>
      rw [search]
      by_cases hid : id = goal
      · subst hid
        obtain ⟨hlast, hfound⟩ := h.ends links
        rw [if_pos rfl]
        exact ⟨0, f, by omega, .done hlast, hfound⟩
      · obtain ⟨f', hnext, htracks⟩ := h.step hs hid
        obtain ⟨rounds, last, hrounds, hends, hfound⟩ := ih htracks (hs.step hid)
          (by simp only [List.length_append, List.length_map, List.length_reverse,
                List.length_cons] at hfuel ⊢; omega) (hs.step hid).length_le
        rw [if_neg hid]
        refine ⟨rounds + 1, last, ?_, .round hnext hends, hfound⟩
        simp only [List.length_append, List.length_map, List.length_reverse,
          List.length_cons] at hrounds ⊢
        omega

/-- Both loops end, and find what the search finds. -/
theorem path?_foundByLoops (links : Links) (start goal : String) :
    FoundByLoops links start goal (path? links start goal) := by
  have hfuel : [[start]].length + (links.length + 1) ≤ 2 * links.length + 2 + [start].length := by
    simp only [List.length_cons, List.length_nil]
    omega
  obtain ⟨rounds, last, hrounds, hends, hlast⟩ :=
    exists_ends_of_search (tracks_init start) (.init links start goal) hfuel
  exact ⟨rounds, last, by simp only [List.length_cons, List.length_nil] at hrounds; omega, hends, hlast⟩

end Inheritance
end SchemaSynth
