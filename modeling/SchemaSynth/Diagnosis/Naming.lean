import SchemaSynth.Diagram.Basic
import SchemaSynth.Schema.TableName

/-! Faults of the table names that the classes of a diagram ask for. -/
namespace SchemaSynth

/-- Two classes that ask for the same table name, the first one that does and a later one. -/
structure NamingConflict where
  tableName : String
  existing : ClassNode
  later : ClassNode
deriving DecidableEq

/-- A class whose name makes no table name. The name here is not cut to the limit. -/
structure InvalidName where
  classId : String
  tableName : String
  fault : NameFault
deriving DecidableEq

namespace Diagram

/-- The conflicts of classes with earlier ones, of which `owners` were the first to ask for their
names. -/
def conflictsFrom (owners : List ClassNode) : List ClassNode → List NamingConflict
  | [] => []
  | c :: cs =>
    let name := TableName.ofClassName c.name
    match owners.find? (fun o => TableName.ofClassName o.name == name) with
    | some owner => ⟨name, owner, c⟩ :: conflictsFrom owners cs
    | none => conflictsFrom (owners ++ [c]) cs

/-- One conflict for every class whose table name an earlier class asks for, against the first of
those. -/
def namingConflicts (d : Diagram) : List NamingConflict :=
  conflictsFrom [] d.classes

def invalidNames (d : Diagram) : List InvalidName :=
  d.classes.filterMap fun c =>
    let name := Identifier.sanitize c.name
    (TableName.fault? name).map fun fault => ⟨c.id, name, fault⟩

end Diagram
end SchemaSynth
