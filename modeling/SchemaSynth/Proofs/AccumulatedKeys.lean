import SchemaSynth.Proofs.LastKeys
import SchemaSynth.Proofs.Reapplication
import Mathlib.Data.List.Infix
import Mathlib.Data.List.Induction

/-! The keys that a script puts on a table, one after the other. Each is over the wholes that the table
was composed into so far. -/
namespace SchemaSynth
open Statement

/-- The key of a part over its wholes: its own key, and the columns that refer to the wholes, each
where it comes first. -/
def keyOver (wholes : List String) : List String :=
  "id" :: (wholes.map Strategy.referenceColumn).eraseDups

/-- The table of the whole, if an application is by the rule for compositions and its edge is onto the
given part. -/
def RuleApplication.wholeOf? (d : Diagram) (names : TableNames) (part : String)
    (a : RuleApplication) : Option String :=
  if a.rule = .composition then do
    let i ← a.edges.head?
    let e ← d.relationships[i]?
    if names.get? e.target = some part then names.get? e.source else none
  else none

def Diagram.wholesOf (d : Diagram) (policy : CollisionPolicy) (part : String) : List String :=
  (d.applications (.resolve policy d) d.classify).filterMap (·.wholeOf? d (.resolve policy d) part)

section Sequences
variable {α β γ : Type} {f : α → List γ} {g : α → Option β} {h : List β → γ}

private theorem flatMap_of_follows {xs : List α}
    (hxs : Follows (fun before x => f x = (g x).toList.map fun y => h (before.filterMap g ++ [y])) xs) :
    xs.flatMap f = (xs.filterMap g).inits.tail.map h := by
  induction xs using List.reverseRecOn with
  | nil => rfl
  | append_singleton xs x ih =>
    obtain ⟨hbefore, hlast⟩ := follows_append.mp hxs
    have hx : f x = (g x).toList.map fun y => h (xs.filterMap g ++ [y]) := by
      simpa using hlast [] x [] rfl
    have hinits (ys : List β) : ys.inits ≠ [] := by cases ys <;> simp
    rw [List.flatMap_append, List.flatMap_singleton, ih hbefore, hx, List.filterMap_append,
      List.inits_append, List.tail_append_of_ne_nil (hinits _), List.map_append]
    cases hg : g x <;> simp [hg]

end Sequences

section Keys
variable {wholes : List String} {keys : PartKeys} {whole part : String}

private theorem keyOver_concat (wholes : List String) (whole : String) :
    keyOver (wholes ++ [whole]) =
      if Strategy.referenceColumn whole ∈ keyOver wholes then keyOver wholes
      else keyOver wholes ++ [Strategy.referenceColumn whole] := by
  have hid := Strategy.referenceColumn_ne_id whole
  simp only [keyOver, List.map_append, List.map_singleton, eraseDups_concat, List.mem_cons, hid,
    false_or, List.mem_eraseDups, List.contains_iff_mem]
  split <;> rfl

private theorem keyOver_nodup (wholes : List String) : (keyOver wholes).Nodup := by
  refine List.nodup_cons.mpr ⟨fun hid => ?_, nodup_eraseDups _⟩
  obtain ⟨whole, _, hwhole⟩ := List.mem_map.mp (List.mem_eraseDups.mp hid)
  exact Strategy.referenceColumn_ne_id whole hwhole

private theorem extended_eq_keyOver (h : keys.keyOf part = keyOver wholes) (whole : String) :
    keys.extended whole part = keyOver (wholes ++ [whole]) := by
  rw [keyOver_concat, PartKeys.extended, h]
  simp only [List.contains_iff_mem]

end Keys

namespace Strategy
variable {d : Diagram} {policy : CollisionPolicy} {e : RelationshipEdge} {i : Nat} {s : Strategy}
  {keys : PartKeys} {part : String} {wholes : List String}

def wholeInto? (part : String) : Strategy → Option String
  | .composition whole p => if p = part then some whole else none
  | _ => none

private theorem keysOn_apply (s : Strategy) (keys : PartKeys) (e : RelationshipEdge) (i : Nat)
    (part : String) : (s.apply keys e i).statements.filterMap (keyOn? part) =
      (s.wholeInto? part).toList.map fun whole => keys.extended whole part := by
  cases s with
  | composition whole p =>
    by_cases hp : p = part <;>
      simp [hp, wholeInto?, apply, statements, compositionStatements, partKey, keyOn?,
        List.filterMap_cons]
  | _ => rfl

private theorem keyOf_keysAfter_eq_keyOver (h : keys.keyOf part = keyOver wholes) (s : Strategy) :
    (s.keysAfter keys).keyOf part = keyOver (wholes ++ (s.wholeInto? part).toList) := by
  cases s with
  | composition whole p =>
    rw [PartKeys.keyOf_keysAfter_composition, wholeInto?]
    by_cases hp : p = part
    · subst hp
      simpa using extended_eq_keyOver h whole
    · simpa [hp, Ne.symm hp] using h
  | _ => simpa [keysAfter, wholeInto?] using h

private theorem Suits.wholeOf?_apply (h : Suits d (.resolve policy d) i e s)
    (he : d.relationships[i]? = some e) (keys : PartKeys) (part : String) :
    (s.apply keys e i).wholeOf? d (.resolve policy d) part = s.wholeInto? part := by
  by_cases hr : s.rule = .composition
  · obtain ⟨source, target, rfl, hs, ht⟩ := h.eq_of_directed composition (.inl rfl) hr
    simp [RuleApplication.wholeOf?, apply, edges, rule, he, hs, ht, wholeInto?]
  · rw [RuleApplication.wholeOf?, if_neg (show (s.apply keys e i).rule ≠ .composition from hr)]
    cases s with
    | composition => exact absurd rfl hr
    | _ => rfl

end Strategy

namespace Diagram
open Strategy
variable {d : Diagram} {policy : CollisionPolicy} {part : String}

private theorem follows_carryOut_keys {es : List (RelationshipEdge × Nat)} {keys : PartKeys}
    {wholes : List String} (hes : ∀ x ∈ es, d.relationships[x.2]? = some x.1)
    (hkeys : keys.keyOf part = keyOver wholes) :
    Follows (fun before a => a.statements.filterMap (keyOn? part) =
        (a.wholeOf? d (.resolve policy d) part).toList.map fun whole =>
          keyOver (wholes ++ before.filterMap (·.wholeOf? d (.resolve policy d) part) ++ [whole]))
      (carryOut (.resolve policy d) d.classify keys es) := by
  induction es generalizing keys wholes with
  | nil => exact follows_nil _
  | cons x es ih =>
    obtain ⟨hx, hrest⟩ := List.forall_mem_cons.mp hes
    have hwhole := (choose_suits policy hx).wholeOf?_apply hx keys part
    refine follows_cons.mpr ⟨?_, ?_⟩
    · rw [keysOn_apply, hwhole, List.filterMap_nil, List.append_nil]
      exact List.map_congr_left fun whole _ => extended_eq_keyOver hkeys whole
    · refine (ih hrest (keyOf_keysAfter_eq_keyOver hkeys _)).imp fun before a ha => ?_
      rw [ha, List.filterMap_cons, hwhole]
      cases (choose (.resolve policy d) d.classify x.1 x.2).wholeInto? part <;> simp

private theorem follows_keys (d : Diagram) (policy : CollisionPolicy) (part : String) :
    Follows (fun before a => a.statements.filterMap (keyOn? part) =
        (a.wholeOf? d (.resolve policy d) part).toList.map fun whole =>
          keyOver (before.filterMap (·.wholeOf? d (.resolve policy d) part) ++ [whole]))
      (d.applications (.resolve policy d) d.classify) := by
  have hnone : PartKeys.keyOf [] part = keyOver [] := rfl
  rw [applications_eq_carryOut]
  simpa using follows_carryOut_keys (fun x hx => (mem_leading.mp hx).1) hnone

private theorem keysOn_statements (d : Diagram) (policy : CollisionPolicy) (part : String) :
    (d.statements policy).filterMap (keyOn? part) =
      (d.applications (.resolve policy d) d.classify).flatMap
        fun a => a.statements.filterMap (keyOn? part) := by
  have htables : (d.tableBlocks (.resolve policy d) d.classify).flatten.filterMap (keyOn? part) = [] := by
    refine List.filterMap_eq_nil_iff.mpr fun st hst => ?_
    obtain ⟨_, _, _, _, _, rfl | rfl⟩ := mem_tableBlocks.mp hst <;> rfl
  rw [statements, synthesize]
  simp only [List.filterMap_append, htables, List.nil_append, List.filterMap_flatMap]

/-- The keys that a script puts on a table are those over the first wholes of it, one by one: as many as
it has compositions. Other applications put no key on it. So each key is over several columns, none of
them twice, and starts with all of the keys before it. -/
theorem keys_accumulate (d : Diagram) (policy : CollisionPolicy) (part : String) :
    let keys := (d.statements policy).filterMap (keyOn? part)
    keys = (d.wholesOf policy part).inits.tail.map keyOver ∧
    Follows (fun before a => a.statements.filterMap (keyOn? part) =
        (a.wholeOf? d (.resolve policy d) part).toList.map fun whole =>
          keyOver (before.filterMap (·.wholeOf? d (.resolve policy d) part) ++ [whole]))
      (d.applications (.resolve policy d) d.classify) ∧
    (∀ key ∈ keys, key.Nodup ∧ 2 ≤ key.length) ∧
    keys.Pairwise (· <+: ·) := by
  intro keys
  have hkeys : keys = (d.wholesOf policy part).inits.tail.map keyOver :=
    (keysOn_statements d policy part).trans (flatMap_of_follows (follows_keys d policy part))
  have hreplaced (key : List String) (st : Statement) (hkey : keyOn? part st = some key) :
      st = .replacePrimaryKey part key := by
    cases st <;> simp_all [keyOn?]
  refine ⟨hkeys, follows_keys d policy part, ?_, ?_⟩
  · intro key hkey
    constructor
    · rw [hkeys] at hkey
      obtain ⟨wholes, _, rfl⟩ := List.mem_map.mp hkey
      exact keyOver_nodup wholes
    · obtain ⟨st, hst, hkey⟩ := List.mem_filterMap.mp hkey
      exact one_lt_length_of_replacePrimaryKey (hreplaced key st hkey ▸ hst)
  · refine List.pairwise_filterMap.mpr ((d.keys_grow policy).imp fun hgrows key hkey key' hkey' => ?_)
    exact hgrows part key key' (hreplaced key _ hkey) (hreplaced key' _ hkey')

def partOfTwoAndOther : Diagram where
  classes := [⟨"a", "A", [], []⟩, ⟨"b", "B", [], []⟩, ⟨"c", "C", [], []⟩, ⟨"x", "X", [], []⟩]
  relationships := [.bare .composition "a" "c", .bare .composition "b" "x",
    .bare .composition "a" "c", .bare .composition "b" "c"]

example : (partOfTwoAndOther.statements .warn).filterMap (keyOn? "c") =
    [["id", "a_id"], ["id", "a_id"], ["id", "a_id", "b_id"]] := by decide

end Diagram
end SchemaSynth
