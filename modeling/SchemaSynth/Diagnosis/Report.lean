import SchemaSynth.Diagnosis.Inheritance
import SchemaSynth.Diagnosis.Naming

/-! All that is found wrong with a diagram. -/
namespace SchemaSynth

structure Orphan where
  edge : Nat
  source : String
  target : String
  sourceExists : Bool
  targetExists : Bool
deriving DecidableEq

structure SelfReference where
  edge : Nat
  classId : String
deriving DecidableEq

namespace Diagram

def orphans (d : Diagram) : List Orphan :=
  d.relationships.zipIdx.filterMap fun (e, index) =>
    let sourceExists := d.ids.contains e.source
    let targetExists := d.ids.contains e.target
    if sourceExists && targetExists then none
    else some ⟨index, e.source, e.target, sourceExists, targetExists⟩

def selfReferences (d : Diagram) : List SelfReference :=
  d.relationships.zipIdx.filterMap fun (e, index) =>
    if e.isSelfReference then some ⟨index, e.source⟩ else none

end Diagram

structure NameReport where
  conflicts : List NamingConflict
  invalid : List InvalidName
deriving DecidableEq

structure RelationshipReport where
  orphans : List Orphan
  selfReferences : List SelfReference
  cycles : List InheritanceCycle
deriving DecidableEq

structure Report where
  names : NameReport
  relationships : RelationshipReport
deriving DecidableEq

def NameReport.isClean (r : NameReport) : Bool :=
  r.conflicts.isEmpty && r.invalid.isEmpty

/-- No orphans and no cycles. A self reference is no fault. -/
def RelationshipReport.isClean (r : RelationshipReport) : Bool :=
  r.orphans.isEmpty && r.cycles.isEmpty

namespace Report

def isClean (r : Report) : Bool :=
  r.names.isClean && r.relationships.isClean

def problemCount (r : Report) : Nat :=
  r.names.conflicts.length + r.names.invalid.length + r.relationships.orphans.length
    + r.relationships.cycles.length

end Report

def Diagram.report (d : Diagram) : Report :=
  ⟨⟨d.namingConflicts, d.invalidNames⟩, ⟨d.orphans, d.selfReferences, d.inheritanceCycles⟩⟩

end SchemaSynth
