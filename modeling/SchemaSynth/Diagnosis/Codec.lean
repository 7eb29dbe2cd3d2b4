import SchemaSynth.Diagnosis.Report
import SchemaSynth.Json.Value

/-! JSON forms of findings. -/
namespace SchemaSynth
open Json

def NameFault.encode : NameFault → Value
  | .empty => .object [("Empty", .text "table name")]
  | .leadingDigit name =>
    .object [("LeadingDigit", .object [("field", .text "table name"), ("name", .text name)])]
  | .reservedWord word =>
    .object [("ReservedWord", .object [("field", .text "table name"), ("word", .text word)])]

def NamingConflict.encode (c : NamingConflict) : Value :=
  .object [("existing_class_id", .text c.existing.id),
    ("existing_class_name", .text c.existing.name), ("new_class_id", .text c.later.id),
    ("new_class_name", .text c.later.name), ("table_name", .text c.tableName)]

def InvalidName.encode (n : InvalidName) : Value :=
  .object [("class_id", .text n.classId), ("error", n.fault.encode),
    ("table_name", .text n.tableName)]

def Orphan.encode (o : Orphan) : Value :=
  .object [("edge_index", .ofNat o.edge), ("from", .text o.source),
    ("from_exists", .boolean o.sourceExists), ("to", .text o.target),
    ("to_exists", .boolean o.targetExists)]

def SelfReference.encode (s : SelfReference) : Value :=
  .object [("class_id", .text s.classId), ("edge_index", .ofNat s.edge)]

def InheritanceCycle.encode (c : InheritanceCycle) : Value :=
  .object [("cycle_path", .texts c.path), ("edge_index", .ofNat c.edge)]

def NameReport.encode (r : NameReport) : Value :=
  .object [("invalid_names", .list (r.invalid.map (·.encode))),
    ("naming_conflicts", .list (r.conflicts.map (·.encode)))]

def RelationshipReport.encode (r : RelationshipReport) : Value :=
  .object [("generalization_cycles", .list (r.cycles.map (·.encode))),
    ("orphaned", .list (r.orphans.map (·.encode))),
    ("self_references", .list (r.selfReferences.map (·.encode)))]

def Report.encode (r : Report) : Value :=
  .object [("relationships", r.relationships.encode), ("tables", r.names.encode)]

end SchemaSynth
