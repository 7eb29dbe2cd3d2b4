import SchemaSynth.Proofs.ClassTables
import SchemaSynth.Proofs.ImportedElements
import SchemaSynth.Synthesis.Generation
import Mathlib.Data.List.Basic

/-! What becomes of the classes that a document holds. One that is no join class has a table of its own,
unless an earlier one has taken its id. -/
namespace SchemaSynth
open Json Statement

private theorem Script.renderBlock_infix_assemble {block : List Statement} {tables : List (List Statement)}
    (h : block ∈ tables) (applications : List RuleApplication) (s : Statistics) (stamp : Option Moment) :
    (renderBlock block).toList <:+: (assemble tables applications s stamp).toList := by
  have htables : (renderBlock block).toList <:+: (String.join (tables.map renderBlock)).toList := by
    rw [String.toList_join, List.flatMap_def]
    exact List.infix_of_mem_flatten (List.mem_map_of_mem (List.mem_map_of_mem h))
  have hbody : (renderBlock block).toList <:+: (assemble tables applications s none).toList := by
    rw [assemble, String.toList_append]
    exact htables.trans (List.prefix_append _ _).isInfix
  cases stamp with
  | none => exact hbody
  | some m =>
    refine hbody.trans ?_
    simp only [assemble, String.toList_append]
    exact List.infix_append _ _ _

namespace Diagram
variable {d : Diagram} {c : ClassNode} {before after : List ClassNode}

/-- The block that the attributes of a class make is among those for tables, and stands in the
script. -/
def HasOwnTable (d : Diagram) (options : Options) (stamp : Moment) (c : ClassNode) : Prop :=
  ∃ block, tableBlock (.resolve options.collisionPolicy d) c = some block ∧
    block ∈ (d.synthesize options.collisionPolicy).1 ∧
    (renderBlock block).toList <:+: (d.generate options stamp).sql.toList

private theorem hasOwnTable_of_first (hc : c ∈ d.firstClasses) (hj : ¬ d.IsJoin c.id) (options : Options)
    (stamp : Moment) : d.HasOwnTable options stamp c := by
  have hid : c.id ∈ d.ids := List.mem_map_of_mem (List.mem_of_find?_eq_some (mem_firstClasses.mp hc))
  obtain ⟨name, hname⟩ := TableNames.exists_get?_resolve options.collisionPolicy hid
  have hblock : tableBlock (.resolve options.collisionPolicy d) c =
      some [.comment ("Table for class " ++ name), .createTable (c.table name)] := by
    rw [tableBlock, hname]
    rfl
  have htables : [.comment ("Table for class " ++ name), .createTable (c.table name)] ∈
      d.tableBlocks (.resolve options.collisionPolicy d) d.classify := by
    refine List.mem_filterMap.mpr ⟨c, List.mem_filter.mpr ⟨hc, ?_⟩, hblock⟩
    rwa [Bool.not_eq_true', ← Bool.not_eq_true, isIntermediary_iff]
  exact ⟨_, hblock, htables, Script.renderBlock_infix_assemble htables _ _ _⟩

private theorem hasOwnTable_or_repeats (hd : d.classes = before ++ c :: after) (options : Options)
    (stamp : Moment) : d.HasOwnTable options stamp c ∨ d.IsJoin c.id ∨
      ∃ b ∈ before, b.id = c.id ∧ d.HasOwnTable options stamp b := by
  by_cases hj : d.IsJoin c.id
  · exact Or.inr (Or.inl hj)
  obtain ⟨b, hb, hid⟩ : ∃ b ∈ firstClasses ⟨before ++ [c], []⟩, b.id = c.id :=
    exists_mem_firstClasses (by simp [ids])
  obtain ⟨before', between, hsplit, hfirst⟩ := mem_firstClasses_iff_append.mp hb
  have hown : d.HasOwnTable options stamp b := by
    apply hasOwnTable_of_first _ (hid ▸ hj)
    refine mem_firstClasses_iff_append.mpr ⟨before', between ++ after, ?_, hfirst⟩
    calc d.classes = (before ++ [c]) ++ after := by rw [hd, List.append_cons]
      _ = (before' ++ b :: between) ++ after := congrArg (· ++ after) hsplit
      _ = before' ++ b :: (between ++ after) := List.append_assoc _ _ _
  have hmem : b ∈ before ++ [c] := (congrArg (b ∈ ·) hsplit).mpr (by simp)
  rcases List.mem_append.mp hmem with hb | hb
  · exact Or.inr (Or.inr ⟨b, hb, hid, hown⟩)
  · exact Or.inl (List.mem_singleton.mp hb ▸ hown)

end Diagram

namespace Import
variable {document : Value} {imported : Import}

/-- Every class of a document that is accepted has a table of its own in the script, or it is a join
class, or an earlier class of the document has its id and has the table. -/
theorem accepted_classes_have_tables (h : ofValue document = .ok imported) (options : Options)
    (stamp : Moment) :
    ∃ boards : List (List Value), GivesBoards document (.list (boards.map .list)) ∧
      ∀ before v after c, boards.flatten = before ++ v :: after → decodedClass v = some c →
        imported.diagram.HasOwnTable options stamp c ∨ imported.diagram.IsJoin c.id ∨
          ∃ b ∈ before.filterMap decodedClass, b.id = c.id ∧
            imported.diagram.HasOwnTable options stamp b := by
  rcases misshapen_or_boards document with ⟨fault, hfault⟩ | ⟨boards, hboards⟩
  · rw [ofValue_of_misshapen hfault] at h
    cases h
  rw [ofValue_of_boards hboards] at h
  obtain rfl := Except.ok.inj h
  refine ⟨boards, hboards, fun before v after c hsplit hv => ?_⟩
  have hclasses : (ofElements boards).diagram.classes =
      before.filterMap decodedClass ++ c :: after.filterMap decodedClass := by
    rw [classes_ofElements, hsplit, List.filterMap_append, List.filterMap_cons_some hv]
  exact Diagram.hasOwnTable_or_repeats hclasses options stamp

/-- Two classes on two boards, one with a number for an id and one with the same number as a text. -/
def boardsOfOneId : List (List Value) :=
  [[.object [("id", .ofNat 1), ("name", .text "Person"), ("type", .text "Class")]],
    [.object [("attributes", .texts ["street: string"]), ("id", .text "1"),
      ("name", .text "Address"), ("type", .text "Class")]]]

def person : ClassNode := ⟨"1", "Person", [], []⟩

def address : ClassNode := ⟨"1", "Address", ["street: string"], []⟩

def ofOneId : Import := ⟨⟨[person, address], []⟩, 2, []⟩

/-- The first of two classes with one id has its table. -/
theorem boardsOfOneId_have_table :
    ofValue (.list (boardsOfOneId.map .list)) = .ok ofOneId ∧
      ofOneId.diagram.HasOwnTable .standard ⟨0, false⟩ person := by
  have hread : ofValue (.list (boardsOfOneId.map .list)) = .ok ofOneId := rfl
  obtain ⟨boards, hboards, hclasses⟩ := accepted_classes_have_tables hread .standard ⟨0, false⟩
  have hbare {items : List Value} {v : Value} (h : GivesBoards (.list items) v) : v = .list items := by
    cases h
    rfl
  obtain rfl := (List.map_inj_right fun _ _ => Value.list.inj).mp (Value.list.inj (hbare hboards))
  rcases hclasses [] _ _ person rfl rfl with hown | hjoin | ⟨b, hb, _⟩
  · exact ⟨hread, hown⟩
  · exact absurd hjoin (by decide)
  · cases hb

/-- The second class has no table, is no join class, and nothing is warned of. -/
theorem boardsOfOneId_lose_class :
    ofValue (.list (boardsOfOneId.map .list)) = .ok ofOneId ∧ ofOneId.warnings = [] ∧
      address ∈ ofOneId.diagram.classes ∧ ¬ ofOneId.diagram.IsJoin address.id ∧
      ∀ options stamp, (ofOneId.diagram.generate options stamp).warnings = [] ∧
        ¬ ofOneId.diagram.HasOwnTable options stamp address := by
  have hblocks (policy : CollisionPolicy) : ∀ block ∈ (ofOneId.diagram.synthesize policy).1,
      Diagram.tableBlock (.resolve policy ofOneId.diagram) address ≠ some block := by
    cases policy <;> decide
  have hwarnings (policy : CollisionPolicy) : ofOneId.diagram.warnings policy = [] := by
    cases policy <;> rfl
  refine ⟨rfl, rfl, by decide, by decide, fun options stamp => ⟨hwarnings _, ?_⟩⟩
  rintro ⟨block, hblock, htables, _⟩
  exact hblocks _ block htables hblock

end Import
end SchemaSynth
