import SchemaSynth.Proofs.CompositeKeys

/-! The last key that a run puts on a table. -/
namespace SchemaSynth

namespace Statement
variable {table : String} {xs ys : List Statement}

def keyOn? (table : String) : Statement → Option (List String)
  | .replacePrimaryKey t columns => if t = table then some columns else none
  | _ => none

def lastKey? (table : String) (statements : List Statement) : Option (List String) :=
  (statements.filterMap (keyOn? table)).getLast?

private theorem lastKey?_append : lastKey? table (xs ++ ys) = (lastKey? table ys).or (lastKey? table xs) := by
  rw [lastKey?, List.filterMap_append, List.getLast?_append]
  rfl

end Statement

namespace Strategy

private theorem lastKey?_apply_isSome (s : Strategy) (keys : PartKeys) (e : RelationshipEdge) (i : Nat)
    (table : String) : (Statement.lastKey? table (s.apply keys e i).statements).isSome = true ↔
      ∃ whole, s = .composition whole table := by
  cases s with
  | composition whole part =>
    by_cases hpart : part = table <;>
      simp [hpart, apply, statements, compositionStatements, Statement.lastKey?, Statement.keyOn?,
        List.findSome?_cons]
  | _ => exact iff_of_false Bool.false_ne_true (by simp)

private theorem lastKey?_apply_getD (s : Strategy) (keys : PartKeys) (e : RelationshipEdge) (i : Nat)
    (table : String) : (Statement.lastKey? table (s.apply keys e i).statements).getD (keys.keyOf table) =
      (s.keysAfter keys).keyOf table := by
  cases s with
  | composition whole part =>
    rw [PartKeys.keyOf_keysAfter_composition]
    by_cases hpart : part = table
    · simp [hpart, apply, statements, compositionStatements, partKey, Statement.lastKey?,
        Statement.keyOn?, List.findSome?_cons]
    · simp [hpart, Ne.symm hpart, apply, statements, compositionStatements, Statement.lastKey?,
        Statement.keyOn?, List.findSome?_cons]
  | _ => rfl

private theorem mem_keyOf_keysAfter (s : Strategy) (keys : PartKeys) (table column : String) :
    column ∈ (s.keysAfter keys).keyOf table ↔ column ∈ keys.keyOf table ∨
      ∃ whole, s = .composition whole table ∧ column = referenceColumn whole := by
  cases s with
  | composition whole part =>
    rw [PartKeys.keyOf_keysAfter_composition]
    by_cases hpart : table = part
    · subst hpart
      simp [PartKeys.mem_extended]
    · simp [hpart, Ne.symm hpart]
  | _ => simp [keysAfter]

end Strategy

namespace Diagram
open Strategy Statement
variable {d : Diagram} {policy : CollisionPolicy} {names : TableNames}
  {classification : Classification} {es : List (RelationshipEdge × Nat)}
  {column whole table : String} {key : List String}

def Composed (names : TableNames) (classification : Classification)
    (es : List (RelationshipEdge × Nat)) (whole part : String) : Prop :=
  ∃ x ∈ es, choose names classification x.1 x.2 = .composition whole part

private theorem composed_cons {x : RelationshipEdge × Nat} :
    Composed names classification (x :: es) whole table ↔
      choose names classification x.1 x.2 = .composition whole table ∨
        Composed names classification es whole table := by
  simp [Composed]

def keysFrom (names : TableNames) (classification : Classification) (keys : PartKeys)
    (es : List (RelationshipEdge × Nat)) : PartKeys :=
  es.foldl (fun keys x => (choose names classification x.1 x.2).keysAfter keys) keys

private theorem mem_keyOf_keysFrom (keys : PartKeys) :
    column ∈ (keysFrom names classification keys es).keyOf table ↔ column ∈ keys.keyOf table ∨
      ∃ whole, Composed names classification es whole table ∧ column = referenceColumn whole := by
  induction es generalizing keys with
  | nil => simp [keysFrom, Composed]
  | cons x es ih =>
    have htail := ih ((choose names classification x.1 x.2).keysAfter keys)
    rw [mem_keyOf_keysAfter] at htail
    simp only [composed_cons, or_and_right, exists_or, ← or_assoc]
    exact htail

private theorem lastKey?_carryOut_isSome (keys : PartKeys) : (lastKey? table
    ((carryOut names classification keys es).flatMap (·.statements))).isSome = true ↔
      ∃ whole, Composed names classification es whole table := by
  induction es generalizing keys with
  | nil => simp [carryOut, lastKey?, Composed]
  | cons x es ih =>
    rw [carryOut, List.flatMap_cons, lastKey?_append, Option.isSome_or, Bool.or_eq_true, ih,
      lastKey?_apply_isSome, or_comm]
    simp only [composed_cons, exists_or]

private theorem lastKey?_carryOut (keys : PartKeys) : (lastKey? table
    ((carryOut names classification keys es).flatMap (·.statements))).getD (keys.keyOf table) =
      (keysFrom names classification keys es).keyOf table := by
  induction es generalizing keys with
  | nil => rfl
  | cons x es ih =>
    rw [carryOut, List.flatMap_cons, lastKey?_append, Option.getD_or, lastKey?_apply_getD, ih]
    rfl

/-- An edge of a diagram puts a part into a whole. -/
def Composes (d : Diagram) (policy : CollisionPolicy) (whole part : String) : Prop :=
  ∃ i e, d.relationships[i]? = some e ∧
    choose (.resolve policy d) d.classify e i = .composition whole part

private theorem composed_leading_iff : Composed (.resolve policy d) d.classify d.leading whole table ↔
    d.Composes policy whole table := by
  constructor
  · rintro ⟨x, hx, hchoose⟩
    exact ⟨x.2, x.1, (mem_leading.mp hx).1, hchoose⟩
  · rintro ⟨i, e, he, hchoose⟩
    have single : ¬ d.Paired i := by
      rintro ⟨p, hp, hi⟩
      obtain ⟨source, target, hrecursive, _⟩ := (choose_suits policy he).of_pair he hp hi
      rw [hchoose] at hrecursive
      cases hrecursive
    exact ⟨(e, i), mem_leading.mpr ⟨he, lead_of_not_paired single⟩, hchoose⟩

/-- The parts get a key in a run. -/
theorem lastKey?_isSome (d : Diagram) (policy : CollisionPolicy) (table : String) :
    (lastKey? table ((d.applications (.resolve policy d) d.classify).flatMap (·.statements))).isSome =
      true ↔ ∃ whole, d.Composes policy whole table := by
  simp only [applications_eq_carryOut, lastKey?_carryOut_isSome, composed_leading_iff]

/-- The last key of a part has the part's own key and a reference to each whole. -/
theorem mem_lastKey? (h : key ∈ lastKey? table
    ((d.applications (.resolve policy d) d.classify).flatMap (·.statements))) :
    column ∈ key ↔ column = "id" ∨
      ∃ whole, d.Composes policy whole table ∧ column = referenceColumn whole := by
  have hkey : key = (keysFrom (.resolve policy d) d.classify [] d.leading).keyOf table := by
    rw [← lastKey?_carryOut, ← applications_eq_carryOut, Option.mem_def.mp h, Option.getD_some]
  rw [hkey, mem_keyOf_keysFrom]
  simp [composed_leading_iff, PartKeys.keyOf]

end Diagram
end SchemaSynth
