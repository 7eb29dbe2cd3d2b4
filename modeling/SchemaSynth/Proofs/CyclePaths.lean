import SchemaSynth.Proofs.InheritanceCycles
import SchemaSynth.Proofs.SearchLoops
import SchemaSynth.Proofs.Sequence
import SchemaSynth.Proofs.ShortestPaths

/-! The paths of the cycles that are reported. -/
namespace SchemaSynth
open Inheritance

namespace Diagram
variable {d : Diagram} {i : Nat} {s t : String}

def InheritsBefore (d : Diagram) (i : Nat) (s t : String) : Prop :=
  ∃ j < i, ∃ e, d.InheritsAt j e ∧ e.source = s ∧ e.target = t

private theorem linked_linksOf (d : Diagram) (i : Nat) :
    Linked (linksOf (d.relationships.take i)) = d.InheritsBefore i := by
  funext s t
  exact propext linked_linksOf_iff

private theorem cyclesFrom_sublist (links : Links) (es : List (RelationshipEdge × Nat)) :
    ((cyclesFrom links es).map (·.edge)).Sublist (es.map (·.2)) := by
  induction es generalizing links with
  | nil => exact List.Sublist.slnil
  | cons x es ih =>
    rw [cyclesFrom]
    split
    · dsimp only
      split
      · exact (ih _).cons_cons _
      · exact (ih _).cons _
    · exact (ih _).cons _

/-- An edge is reported once if it is a generalization whose child leads to its parent over earlier
generalizations, and not at all otherwise. The path that is told with it leads there over earlier ones,
comes to no class twice, and is not longer than any other. The search for it and the way back over the
parents end, whatever links there are. -/
theorem reported_cycles_shortest (d : Diagram) :
    (d.inheritanceCycles.map (·.edge)).Pairwise (· < ·) ∧
    (∀ i, i ∈ d.inheritanceCycles.map (·.edge) ↔
      ∃ e, d.InheritsAt i e ∧ Relation.ReflTransGen (d.InheritsBefore i) e.target e.source) ∧
    (∀ c ∈ d.inheritanceCycles, ∃ e, d.InheritsAt c.edge e ∧
      c.path.head? = some e.target ∧ c.path.getLast? = some e.source ∧ c.path.Nodup ∧
      c.path.IsChain (d.InheritsBefore c.edge) ∧
      ∀ other : List String, other.head? = some e.target → other.getLast? = some e.source →
        other.IsChain (d.InheritsBefore c.edge) → c.path.length ≤ other.length) ∧
    ∀ links start goal, FoundByLoops links start goal (path? links start goal) := by
  refine ⟨?_, fun i => ?_, fun c hc => ?_, path?_foundByLoops⟩
  · refine List.Pairwise.sublist (cyclesFrom_sublist [] _) ?_
    exact List.pairwise_map.mpr (zipIdx_sorted d.relationships 0)
  · rw [← linked_linksOf]
    constructor
    · intro hi
      obtain ⟨c, hc, rfl⟩ := List.mem_map.mp hi
      obtain ⟨e, hedge, hpath⟩ := mem_inheritanceCycles.mp hc
      exact ⟨e, hedge, (route_of_path? hpath).reaches⟩
    · rintro ⟨e, hedge, hreaches⟩
      obtain ⟨path, hpath⟩ := Option.isSome_iff_exists.mp (path?_isSome_iff.mpr hreaches)
      exact List.mem_map.mpr ⟨⟨i, path⟩, mem_inheritanceCycles.mpr ⟨e, hedge, hpath⟩, rfl⟩
  · obtain ⟨e, hedge, hpath⟩ := mem_inheritanceCycles.mp hc
    have hroute := route_of_path? hpath
    rw [← linked_linksOf]
    exact ⟨e, hedge, hroute.head, hroute.last, hroute.nodup, hroute.linked,
      fun _ => length_le_of_path? hpath⟩

def twoWaysBack : Diagram where
  classes := []
  relationships := [.bare .generalization "b" "c", .bare .generalization "c" "a",
    .bare .generalization "b" "d", .bare .generalization "d" "e", .bare .generalization "e" "a",
    .bare .generalization "a" "b"]

example : twoWaysBack.inheritanceCycles = [⟨5, ["b", "c", "a"]⟩] := by decide

end Diagram
end SchemaSynth
