import SchemaSynth.Diagnosis.Inheritance
import SchemaSynth.Synthesis.ClassTable
import SchemaSynth.Synthesis.Script

/-! From a diagram to its script. -/
namespace SchemaSynth

structure Options where
  collisionPolicy : CollisionPolicy
  includeBanner : Bool
deriving DecidableEq

def Options.standard : Options := ⟨.warn, true⟩

structure Generation where
  sql : String
  statistics : Statistics
  appliedRules : List RuleApplication
  warnings : List String
deriving DecidableEq

def InvalidName.warning (n : InvalidName) : String :=
  "Class " ++ n.classId ++ " maps to table '" ++ n.tableName ++ "': " ++ n.fault.message

def InheritanceCycle.warning (c : InheritanceCycle) : String :=
  "Generalization at edge " ++ toString c.edge ++ " closes an inheritance cycle: "
    ++ " -> ".intercalate c.path

namespace Diagram

/-- The statements for all classes and relationships: table blocks and rule applications. -/
def synthesize (d : Diagram) (policy : CollisionPolicy) :
    List (List Statement) × List RuleApplication :=
  let names := TableNames.resolve policy d
  let classification := d.classify
  (d.tableBlocks names classification, d.applications names classification)

def statements (d : Diagram) (policy : CollisionPolicy) : List Statement :=
  let (tables, applications) := d.synthesize policy
  tables.flatten ++ applications.flatMap (·.statements)

def statistics (d : Diagram) (applications : List RuleApplication) : Statistics :=
  { classCount := d.classes.length
    relationshipCount := d.relationships.length
    tableCount :=
      d.classes.length + (applications.filter fun a => a.rule = .manyToMany).length }

/-- What is warned of: conflicts, then unusable names, then cycles. -/
def warnings (d : Diagram) (policy : CollisionPolicy) : List String :=
  (TableNames.resolve policy d).warnings ++ d.invalidNames.map (·.warning)
    ++ d.inheritanceCycles.map (·.warning)

/-- The script of a diagram, stamped with a moment if it has a banner. -/
def generate (d : Diagram) (options : Options) (stamp : Moment) : Generation :=
  let (tables, applications) := d.synthesize options.collisionPolicy
  let statistics := d.statistics applications
  { sql := Script.assemble tables applications statistics
      (if options.includeBanner then some stamp else none)
    statistics := statistics
    appliedRules := applications
    warnings := d.warnings options.collisionPolicy }

end Diagram
end SchemaSynth
