import SchemaSynth.CommandLine.Run
import SchemaSynth.Proofs.RelationshipOrder

/-! What a report says of a diagram is what a generation makes of it: the edges that are found fault with
are those that get no statements, and a diagram is clean if nothing is warned of and no end is missing. -/
namespace SchemaSynth

namespace Diagram
variable {d : Diagram} {policy : CollisionPolicy} {e : RelationshipEdge} {r : Rule} {i : Nat}

private theorem exists_finding_iff {α : Type} {find? : RelationshipEdge × Nat → Option α}
    {edge : α → Nat} (hedge : ∀ e n x, find? (e, n) = some x → edge x = n)
    (he : d.relationships[i]? = some e) :
    (∃ x ∈ d.relationships.zipIdx.filterMap find?, edge x = i) ↔ (find? (e, i)).isSome = true := by
  simp only [List.mem_filterMap, List.mem_zipIdx_iff_getElem?, Prod.exists]
  constructor
  · rintro ⟨x, ⟨e', n, hn, hx⟩, rfl⟩
    rw [hedge e' n x hx] at he ⊢
    obtain rfl := Option.some.inj (he.symm.trans hn)
    exact Option.isSome_of_eq_some hx
  · intro hsome
    obtain ⟨x, hx⟩ := Option.isSome_iff_exists.mp hsome
    exact ⟨x, ⟨e, i, he, hx⟩, hedge e i x hx⟩

private theorem exists_orphan_iff (he : d.relationships[i]? = some e) :
    (∃ o ∈ d.orphans, o.edge = i) ↔ e.source ∉ d.ids ∨ e.target ∉ d.ids := by
  rw [orphans, exists_finding_iff ?_ he]
  · simp [← not_and_or]
  · intro e n o ho
    dsimp only at ho
    split at ho
    · cases ho
    · exact (Option.some.inj ho) ▸ rfl

private theorem exists_selfReference_iff (he : d.relationships[i]? = some e) :
    (∃ s ∈ d.selfReferences, s.edge = i) ↔ e.source = e.target := by
  rw [selfReferences, exists_finding_iff ?_ he]
  · simp [RelationshipEdge.isSelfReference]
  · intro e n s hs
    dsimp only at hs
    split at hs
    · exact (Option.some.inj hs) ▸ rfl
    · cases hs

private theorem orphans_eq_nil_iff :
    d.orphans = [] ↔ ∀ e ∈ d.relationships, e.source ∈ d.ids ∧ e.target ∈ d.ids := by
  constructor
  · intro hnil e he
    obtain ⟨i, hi⟩ := List.mem_iff_getElem?.mp he
    have hnone : ¬ ∃ o ∈ d.orphans, o.edge = i := by simp [hnil]
    simpa [exists_orphan_iff hi] using hnone
  · intro hknown
    rw [List.eq_nil_iff_forall_not_mem]
    intro o ho
    obtain ⟨⟨e, n⟩, he, hsome⟩ := List.mem_filterMap.mp ho
    obtain ⟨hs, ht⟩ := hknown e (List.fst_mem_of_mem_zipIdx he)
    simp [hs, ht] at hsome

private theorem meets_of_firstRule (h : d.firstRule i e = some r) : d.Meets i e r := by
  have hmeets : decide (d.Meets i e r) = true := List.find?_some (p := (decide <| d.Meets i e ·)) h
  exact of_decide_eq_true hmeets

private theorem firstRule_eq_missingEndpoint_iff :
    d.firstRule i e = some .missingEndpoint ↔ d.Meets i e .missingEndpoint :=
  ⟨meets_of_firstRule, fun h => firstRule_eq_some [] _ rfl h (by simp)⟩

private theorem firstRule_eq_selfReference_iff : d.firstRule i e = some .selfReference ↔
    e.source = e.target ∧ d.firstRule i e ≠ some .missingEndpoint := by
  constructor
  · intro h
    exact ⟨meets_of_firstRule h, by simp [h]⟩
  · rintro ⟨hself, hmissing⟩
    rw [Ne, firstRule_eq_missingEndpoint_iff] at hmissing
    exact firstRule_eq_some [.missingEndpoint] _ rfl hself (by simpa using hmissing)

private theorem rulesFor_eq_iff (policy : CollisionPolicy) (he : d.relationships[i]? = some e) :
    RuleApplication.rulesFor (d.applications (.resolve policy d) d.classify) i = [r] ↔
      d.firstRule i e = some r := by
  have hfirst := (Strategy.choose_suits policy he).firstRule
  rw [rulesFor_applications policy he hfirst, hfirst, List.cons.injEq, Option.some.injEq]
  exact and_iff_left rfl

private theorem report_isClean_iff : d.report.isClean = true ↔
    (d.namingConflicts = [] ∧ d.invalidNames = []) ∧ d.orphans = [] ∧ d.inheritanceCycles = [] := by
  simp [report, Report.isClean, NameReport.isClean, RelationshipReport.isClean]

private theorem problemCount_eq_zero_iff : d.report.problemCount = 0 ↔ d.report.isClean = true := by
  rw [report_isClean_iff]
  simp [report, Report.problemCount, and_assoc]

private theorem warnings_eq_nil_iff (policy : CollisionPolicy) : d.warnings policy = [] ↔
    (d.namingConflicts = [] ∧ d.invalidNames = []) ∧ d.inheritanceCycles = [] := by
  simp [warnings, TableNames.resolve, and_assoc]

end Diagram

namespace CommandLine

private theorem identity_bind {α β : Type} (a : α) (f : α → Id β) : (bind (m := Id) a f) = f a := rfl

private theorem validate_succeeds_iff (machine : Machine) (input : String) :
    ((conclude Machine.host (validate Machine.host input)).run machine).1 = 0 ↔
      ∃ imported after, (loadDiagram Machine.host input).run.run machine = (.ok imported, after) ∧
        imported.diagram.report.isClean = true := by
  rw [conclude, validate, ExceptT.run_bind]
  simp only [StateT.run_bind]
  cases (loadDiagram Machine.host input).run.run machine with
  | mk result after =>
    cases result with
    | error failure => exact iff_of_false Nat.one_ne_zero fun ⟨_, _, h, _⟩ => nomatch h
    | ok imported =>
      by_cases hclean : imported.diagram.report.isClean = true
      · refine iff_of_true ?_ ⟨imported, after, rfl, hclean⟩
        simp only [identity_bind, hclean]
        rfl
      · refine iff_of_false ?_ ?_
        · simp only [identity_bind, hclean]
          exact Nat.one_ne_zero
        · rintro ⟨_, _, h, hloaded⟩
          cases h
          exact hclean hloaded

end CommandLine

namespace Diagram

/-- A report and a generation give one verdict. The warnings are the findings on names and cycles in
their order. The edges without an end, or with a join class outside of its pair, are those that get no
statements, and the edges from a class to itself among the others are handled as such. So a diagram
is clean, which is what the check succeeds on, if nothing is counted, and if nothing is warned of and
every end is a class. -/
theorem report_agrees_with_generation (d : Diagram) (options : Options) (stamp : Moment) :
    (d.generate options stamp).warnings =
      d.namingConflicts.map (TableNames.conflictMessage options.collisionPolicy) ++
        d.invalidNames.map (·.warning) ++ d.inheritanceCycles.map (·.warning) ∧
    (∀ i : Fin d.relationships.length,
      (RuleApplication.rulesFor (d.generate options stamp).appliedRules i = [.missingEndpoint] ↔
        (∃ o ∈ d.report.relationships.orphans, o.edge = i) ∨
          ((d.relationships.get i).source ∈ d.ids ∧ (d.relationships.get i).target ∈ d.ids) ∧
            ¬ d.Paired i ∧ (d.classify.isIntermediary (d.relationships.get i).source = true ∨
              d.classify.isIntermediary (d.relationships.get i).target = true)) ∧
      (RuleApplication.rulesFor (d.generate options stamp).appliedRules i = [.selfReference] ↔
        (∃ s ∈ d.report.relationships.selfReferences, s.edge = i) ∧
          RuleApplication.rulesFor (d.generate options stamp).appliedRules i ≠ [.missingEndpoint])) ∧
    (d.report.isClean = true ↔ d.report.problemCount = 0) ∧
    (d.report.isClean = true ↔ (d.generate options stamp).warnings = [] ∧
      ∀ e ∈ d.relationships, e.source ∈ d.ids ∧ e.target ∈ d.ids) ∧
    ∀ (machine : CommandLine.Machine) (input : String),
      ((CommandLine.conclude CommandLine.Machine.host
          (CommandLine.validate CommandLine.Machine.host input)).run machine).1 = 0 ↔
        ∃ imported after, (CommandLine.loadDiagram CommandLine.Machine.host input).run.run machine =
          (.ok imported, after) ∧ imported.diagram.report.isClean = true := by
  refine ⟨rfl, fun i => ?_, problemCount_eq_zero_iff.symm, ?_,
    CommandLine.validate_succeeds_iff⟩
  · have he : d.relationships[(i : Nat)]? = some (d.relationships.get i) :=
      List.getElem?_eq_getElem i.isLt
    have hrules (r : Rule) : RuleApplication.rulesFor (d.generate options stamp).appliedRules i = [r] ↔
        d.firstRule i (d.relationships.get i) = some r := rulesFor_eq_iff options.collisionPolicy he
    have horphan : (∃ o ∈ d.report.relationships.orphans, o.edge = i) ↔ _ := exists_orphan_iff he
    have hself : (∃ s ∈ d.report.relationships.selfReferences, s.edge = i) ↔ _ :=
      exists_selfReference_iff he
    rw [Ne, hrules, hrules, horphan, hself]
    refine ⟨?_, firstRule_eq_selfReference_iff⟩
    rw [firstRule_eq_missingEndpoint_iff, Meets, isIntermediary_iff, isIntermediary_iff, ← or_assoc]
    refine or_congr_right' fun hends => ?_
    rw [not_or, not_not, not_not] at hends
    exact (and_iff_right hends).symm
  · have hwarnings : (d.generate options stamp).warnings = [] ↔ _ :=
      warnings_eq_nil_iff options.collisionPolicy
    rw [report_isClean_iff, hwarnings, orphans_eq_nil_iff, ← and_assoc, and_right_comm]

end Diagram
end SchemaSynth
