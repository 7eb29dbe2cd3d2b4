/-! Paths as texts with slashes. -/
namespace SchemaSynth.Path

def split : List Char → List (List Char)
  | [] => [[]]
  | c :: cs =>
    if c = '/' then [] :: split cs
    else match split cs with
      | [] => [[c]]
      | step :: steps => (c :: step) :: steps

/-- What stands between the slashes. A path that starts with one starts with an empty step. -/
def steps (path : String) : List String :=
  (split path.toList).map String.ofList

def ofSteps (steps : List String) : String :=
  if steps = [""] then "/" else "/".intercalate steps

def withoutSlashes (steps : List String) : List String :=
  (steps.reverse.dropWhile (· = "")).reverse

def isIdle (step : String) : Bool :=
  step = "" || step = "."

def dropIdle (steps : List String) : List String :=
  (steps.reverse.dropWhile isIdle).reverse

def fileName? (path : String) : Option String :=
  (dropIdle (steps path)).getLast?.filter (· != "..")

def parentSteps (path : String) : List String :=
  dropIdle (dropIdle (steps path)).dropLast

/-- What follows the last dot of the file name. A dot in front of the name does not count. -/
def extension? (path : String) : Option String := do
  let name := (← fileName? path).toList
  let ending := (name.reverse.takeWhile (· != '.')).reverse
  if ending.length + 1 < name.length then some (String.ofList ending) else none

def join (directory name : String) : String :=
  if (steps directory).getLast? = some "" then directory ++ name else directory ++ "/" ++ name

end SchemaSynth.Path
