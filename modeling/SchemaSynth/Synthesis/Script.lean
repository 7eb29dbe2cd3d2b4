import SchemaSynth.Calendar
import SchemaSynth.Synthesis.Application

/-! The script: a banner, the class tables, the statements of the rules, a trailer. -/
namespace SchemaSynth

/-- What was counted. Of the join tables only those between two classes count as tables. -/
structure Statistics where
  classCount : Nat
  relationshipCount : Nat
  tableCount : Nat
deriving DecidableEq

namespace Script

def banner (s : Statistics) (stamp : Moment) : String :=
  "-- Generated from class diagram\n-- Date: " ++ stamp.toText ++ "\n-- Classes: "
    ++ toString s.classCount ++ ", Relationships: " ++ toString s.relationshipCount ++ "\n\n"

def trailer (s : Statistics) : String :=
  "-- End of generated script\n-- Total tables: " ++ toString s.tableCount
    ++ "\n-- Total relationships processed: " ++ toString s.relationshipCount ++ "\n"

/-- The script, without banner and trailer if there is no moment to stamp it with. -/
def assemble (tables : List (List Statement)) (applications : List RuleApplication)
    (s : Statistics) (stamp : Option Moment) : String :=
  let body := String.join (tables.map Statement.renderBlock)
    ++ String.join (applications.map fun a => Statement.renderBlock a.statements)
  match stamp with
  | some m => banner s m ++ body ++ trailer s
  | none => body

end Script
end SchemaSynth
