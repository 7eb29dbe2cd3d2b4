import SchemaSynth.Diagnosis.Report
import SchemaSynth.Diagram.Import

/-! Findings about a diagram as lines of text. -/
namespace SchemaSynth

def NamingConflict.line (c : NamingConflict) : String :=
  "❌ Classes '" ++ c.existing.name ++ "' (" ++ c.existing.id ++ ") and '" ++ c.later.name ++ "' ("
    ++ c.later.id ++ ") both map to table '" ++ c.tableName ++ "'"

def InvalidName.line (n : InvalidName) : String :=
  "❌ Class " ++ n.classId ++ ": " ++ n.fault.message

def Orphan.unknown (o : Orphan) : List String :=
  (if o.sourceExists then [] else [o.source]) ++ (if o.targetExists then [] else [o.target])

def Orphan.line (o : Orphan) : String :=
  "❌ Relationship " ++ toString o.edge ++ " (" ++ o.source ++ " -> " ++ o.target
    ++ ") references unknown class " ++ ", ".intercalate o.unknown

def InheritanceCycle.line (c : InheritanceCycle) : String :=
  "❌ Generalization " ++ toString c.edge ++ " closes an inheritance cycle: "
    ++ " -> ".intercalate c.path

def SelfReference.line (s : SelfReference) : String :=
  "ℹ️  Relationship " ++ toString s.edge ++ " is a self-reference on class " ++ s.classId

def Report.lines (r : Report) : List String :=
  r.names.conflicts.map (·.line) ++ r.names.invalid.map (·.line)
    ++ r.relationships.orphans.map (·.line) ++ r.relationships.cycles.map (·.line)
    ++ r.relationships.selfReferences.map (·.line)

def Import.skippedLines (i : Import) : List String :=
  i.warnings.map fun w => "⚠️  Skipped " ++ w.message

end SchemaSynth
