import SchemaSynth.Diagnosis.Naming

/-! The table name of every class. -/
namespace SchemaSynth

/-- What to do when two classes ask for the same table name: keep it and warn, or put a number
behind the later one. -/
inductive CollisionPolicy
  | warn
  | suffix
deriving DecidableEq

namespace CollisionPolicy

/-- The policy of a name, in whatever case and between blanks. -/
def parse? (s : String) : Option CollisionPolicy :=
  let word := String.ofList ((Text.trim s.toList).map Text.lower)
  if word = "warn" then some .warn else if word = "suffix" then some .suffix else none

def unknownMessage (s : String) : String :=
  "Unknown collision policy: " ++ s ++ ". Use 'warn' or 'suffix'."

end CollisionPolicy

/-- The table name of every class id, in the order of the classes, and what was warned of. -/
structure TableNames where
  assigned : List (String × String)
  warnings : List String
deriving DecidableEq

namespace TableNames

def get? (names : TableNames) (id : String) : Option String :=
  names.assigned.lookup id

def numbered (base : String) (n : Nat) : String :=
  Identifier.suffixed base ("_" ++ toString n)

/-- The base if it is free, else the base with the least free number from two on. The numbers tried
are more than the names taken, so one of them is free. -/
def freeName (base : String) (taken : List String) : String :=
  if taken.contains base then
    (((List.range' 2 (taken.length + 1)).map (numbered base)).find?
      fun name => !taken.contains name).getD base
  else base

def nameFor (policy : CollisionPolicy) (assigned : List (String × String)) (c : ClassNode) : String :=
  let base := TableName.ofClassName c.name
  match policy with
  | .warn => base
  | .suffix => freeName base (assigned.map (·.2))

/-- A class whose id has a name already adds nothing. -/
def assign (policy : CollisionPolicy) (assigned : List (String × String)) (c : ClassNode) :
    List (String × String) :=
  if (assigned.lookup c.id).isSome then assigned
  else assigned ++ [(c.id, nameFor policy assigned c)]

def conflictMessage (policy : CollisionPolicy) (c : NamingConflict) : String :=
  let existing := "'" ++ c.existing.name ++ "' (" ++ c.existing.id ++ ")"
  let later := "'" ++ c.later.name ++ "' (" ++ c.later.id ++ ")"
  match policy with
  | .warn => "Classes " ++ existing ++ " and " ++ later ++ " both map to table '" ++ c.tableName ++ "'"
  | .suffix =>
    "Class " ++ later ++ " collides with " ++ existing ++ " on table '" ++ c.tableName
      ++ "' and was renamed"

/-- The names of a diagram's classes. Of several classes with one id the first is named. -/
def resolve (policy : CollisionPolicy) (d : Diagram) : TableNames :=
  ⟨d.classes.foldl (assign policy) [], d.namingConflicts.map (conflictMessage policy)⟩

end TableNames
end SchemaSynth
