import SchemaSynth.Proofs.ColumnClashes

/-! Whether the defaults of columns fit their types. A child that inherits has a column that tells its
kind, and the name of its table is the default. -/
namespace SchemaSynth

/-- A text that is the default of a column of bounded length is no longer than the bound. -/
def Column.DefaultFits (c : Column) : Prop :=
  ∀ length text, c.type = .varchar length → c.default? = some ("'" ++ text ++ "'") →
    text.length ≤ length.toNat

private theorem Column.defaultFits_of_none {c : Column} (h : c.default? = none) : c.DefaultFits := by
  intro length text _ hdefault
  rw [h] at hdefault
  cases hdefault

namespace Strategy
variable {d : Diagram} {names : TableNames} {i : Nat} {e : RelationshipEdge} {s : Strategy}
  {child : String}

private theorem discriminator_defaultFits_iff : (discriminator child).DefaultFits ↔ child.length ≤ 50 := by
  constructor
  · intro h
    exact h 50 child rfl rfl
  · intro hle length text htype hdefault
    obtain rfl : 50 = length := ColumnType.varchar.inj htype
    have hquoted : "'" ++ child ++ "'" = "'" ++ text ++ "'" := Option.some.inj hdefault
    rw [← String.toList_inj] at hquoted
    have htext : child = text := String.toList_inj.mp (by simpa using hquoted)
    exact htext ▸ hle

private theorem addColumn_discriminator_mem (e : RelationshipEdge) (key : List String)
    (parent child : String) :
    .addColumn child (discriminator child) ∈ (generalization parent child).statements e key := by
  simp [statements, generalizationStatements, discriminator]

end Strategy

namespace Diagram
open Strategy
variable {d : Diagram} {policy : CollisionPolicy} {i : Nat} {parent child : String}

private theorem RuleBetween.exists_discriminator (h : d.RuleBetween policy i .generalization parent child) :
    ∃ a ∈ d.applications (.resolve policy d) d.classify, a.rule = .generalization ∧
      .addColumn child (discriminator child) ∈ a.statements := by
  obtain ⟨e, he, hr, hs, ht⟩ := h
  obtain ⟨a, ha, _, s, f, key, hsuits, hrule, hstatements⟩ := exists_application policy he
  have hgeneral : s.rule = .generalization := Option.some.inj (hsuits.firstRule.symm.trans hr)
  obtain ⟨source, target, rfl, _, ht'⟩ := hsuits.eq_of_directed generalization (.inr rfl) hgeneral
  obtain rfl := Option.some.inj (ht.symm.trans ht')
  exact ⟨a, ha, hrule, hstatements ▸ addColumn_discriminator_mem f key source child⟩

private theorem Prescribed.defaultFits {x : String × Column} (hx : d.Prescribed policy Rule.columns x)
    (h : ∀ i parent child, d.RuleBetween policy i .generalization parent child →
      child.length ≤ 50) : x.2.DefaultFits := by
  obtain ⟨i, e, r, source, target, he, hr, hs, ht, hx⟩ := hx
  rcases Rule.default_of_mem_columns hx with hnone | ⟨rfl, rfl⟩
  · exact Column.defaultFits_of_none hnone
  · exact discriminator_defaultFits_iff.mpr (h i source target ⟨e, he, hr, hs, ht⟩)

/-- The columns that inheritance adds have defaults that fit, and so have all columns of a script, unless
a child has a table name of more than fifty characters. -/
theorem discriminators_fit_iff (d : Diagram) (policy : CollisionPolicy) :
    ((∀ a ∈ d.applications (.resolve policy d) d.classify, a.rule = .generalization →
        ∀ table c, .addColumn table c ∈ a.statements → c.DefaultFits) ↔
      ∀ i parent child, d.RuleBetween policy i .generalization parent child →
        child.length ≤ 50) ∧
    ((∀ st ∈ d.statements policy, ∀ x ∈ st.columns, x.2.DefaultFits) ↔
      ∀ i parent child, d.RuleBetween policy i .generalization parent child →
        child.length ≤ 50) := by
  refine ⟨⟨?_, ?_⟩, ?_, ?_⟩
  · intro h i parent child hrule
    obtain ⟨a, ha, har, hmem⟩ := hrule.exists_discriminator
    exact discriminator_defaultFits_iff.mp (h a ha har child _ hmem)
  · intro h a ha _ table c hmem
    have hst := List.mem_flatMap.mpr ⟨a, ha, hmem⟩
    have hx : d.Prescribed policy Rule.columns (table, c) :=
      Rule.reading_columns.exists_mem_applications_iff.mp ⟨_, hst, List.mem_singleton_self _⟩
    exact hx.defaultFits h
  · intro h i parent child hrule
    obtain ⟨a, ha, _, hmem⟩ := hrule.exists_discriminator
    have hst := mem_statements.mpr (Or.inr ⟨a, ha, hmem⟩)
    exact discriminator_defaultFits_iff.mp (h _ hst _ (List.mem_singleton_self _))
  · intro h st hst x hx
    rcases Rule.reading_columns.mem_script_iff.mp (List.mem_flatMap.mpr ⟨st, hst, hx⟩) with
      ⟨c, _, _, name, _, hx⟩ | hx
    · rcases (ClassNode.mem_columns_table.mp hx).2 with hkey | ⟨_, hdata⟩ | ⟨raw, _, hraw⟩
      · exact Column.defaultFits_of_none (hkey ▸ rfl)
      · exact Column.defaultFits_of_none (hdata ▸ rfl)
      · exact Column.defaultFits_of_none (hraw ▸ rfl)
    · exact hx.defaultFits h

def longNamedChild : Diagram where
  classes := [⟨"a", "A", [], []⟩, ⟨"b", String.ofList (List.replicate 51 'b'), [], []⟩]
  relationships := [.bare .generalization "a" "b"]

/-- The default has one character more than the column takes. -/
theorem longNamedChild_default_too_long :
    ∃ a ∈ longNamedChild.applications (.resolve .warn longNamedChild) longNamedChild.classify,
      a.rule = .generalization ∧ ∃ table c, .addColumn table c ∈ a.statements ∧ ¬ c.DefaultFits := by
  have hrule : longNamedChild.RuleBetween .warn 0 .generalization "a"
      (String.ofList (List.replicate 51 'b')) :=
    ⟨_, rfl, by decide, by decide +kernel, by decide +kernel⟩
  obtain ⟨a, ha, har, hmem⟩ := hrule.exists_discriminator
  refine ⟨a, ha, har, _, _, hmem, ?_⟩
  rw [discriminator_defaultFits_iff]
  decide

end Diagram
end SchemaSynth
