import SchemaSynth.CommandLine.Command
import SchemaSynth.CommandLine.Failure
import SchemaSynth.CommandLine.Findings
import SchemaSynth.CommandLine.Host
import SchemaSynth.Exchange.Response

/-! Running commands. `generate` prints or writes only when nothing else can fail any more;
`validate` prints what it finds and then fails if any of it is a fault. -/
namespace SchemaSynth.CommandLine
variable {m : Type → Type} [Monad m]

def orFail {α : Type} (failure : FileFault → Failure) (action : m (Except FileFault α)) :
    ExceptT Failure m α := do
  match ← action with
  | .ok a => return a
  | .error fault => throw (failure fault)

def linesOf (lines : List String) : String :=
  String.join (lines.map (· ++ "\n"))

def loadSettings (host : Host m) : ExceptT Failure m Settings := do
  let path := Path.join (← host.homeName) Settings.fileName
  let settings ←
    if ← host.exists? Settings.fileName then do
      let text ← orFail (.unreadableSettings path) (host.readFile Settings.fileName)
      match Settings.parse? text with
      | some settings => pure settings
      | none => throw (.badSettings path)
    else pure .standard
  let policy ← host.setting? Settings.policyVariable
  let banner ← host.setting? Settings.bannerVariable
  return settings.override policy banner

/-- The diagram of a file, or of the standard input, which holds JSON. -/
def loadDiagram (host : Host m) (input : String) : ExceptT Failure m Import := do
  let imported ←
    if input = standardInput then do
      pure (Import.ofJson (← orFail .unreadableInput host.readInput))
    else if ← host.exists? input then do
      pure (Import.ofNamed input (← orFail (.unreadableFile input) (host.readFile input)))
    else throw (.fileMissing input)
  match imported with
  | .ok i => return i
  | .error e => throw (.notImported e)

/-- What `generate` writes: the script, or the response with it. -/
def GenerateArguments.content (a : GenerateArguments) (g : Generation) : String :=
  if a.asJson then (Delivery.ofGeneration g).encode.indented 0 ++ "\n" else g.sql

def doneLine (s : Statistics) (path : String) : String :=
  "✅ Generated " ++ toString s.tableCount ++ " tables from " ++ toString s.classCount
    ++ " classes and " ++ toString s.relationshipCount ++ " relationships to " ++ path

def ensureDirectory (host : Host m) (path : String) : m (Except FileFault Unit) := do
  match ← host.makeDirectory path with
  | .ok () => return .ok ()
  | .error fault => if ← host.isDirectory path then return .ok () else return .error fault

/-- Makes the directory at the end of steps, which are given backwards. Those on the way are made
only if it cannot be made without them. -/
def ensureDirectories (host : Host m) : List String → m (Except FileFault Unit)
  | [] => return .ok ()
  | step :: before => do
    let path := Path.ofSteps (step :: before).reverse
    match ← ensureDirectory host path with
    | .error .notFound =>
      match ← ensureDirectories host before with
      | .ok () => ensureDirectory host path
      | .error fault => return .error fault
    | result => return result

def writeOutput (host : Host m) (path content : String) : ExceptT Failure m Unit := do
  orFail (.directoryNotMade path) (ensureDirectories host (Path.parentSteps path).reverse)
  orFail (.unwritableFile path) (host.writeFile path content)

/-- The script of a diagram, to a file or to the standard output. -/
def generate (host : Host m) (a : GenerateArguments) : ExceptT Failure m Unit := do
  let options := a.adjust (← loadSettings host).generator
  if let some path := a.output then
    if !a.force && (← host.exists? path) then throw (.outputExists path)
  let imported ← loadDiagram host a.input
  host.report (linesOf imported.skippedLines)
  let generation := imported.diagram.generate options (← host.now)
  host.report (linesOf (generation.warnings.map ("⚠️  " ++ ·)))
  let content := a.content generation
  match a.output with
  | some path => do
    writeOutput host path content
    host.report (linesOf [doneLine generation.statistics path])
  | none => host.print content

/-- The findings about a diagram. Faults among them make it fail. -/
def validate (host : Host m) (input : String) : ExceptT Failure m Unit := do
  let imported ← loadDiagram host input
  let report := imported.diagram.report
  host.print (linesOf (imported.skippedLines ++ report.lines))
  if !report.isClean then throw (.problemsFound report.problemCount)
  host.print (linesOf
    ["Validation successful: " ++ toString imported.diagram.classes.length ++ " classes, "
      ++ toString imported.diagram.relationships.length ++ " relationships"])

def versionLine : String := "uml-schema-cli 0.3.0"

def usage : String :=
  linesOf ["Usage: uml-schema-cli generate [INPUT] [-o OUTPUT] [--json] [--suffix-collisions]"
      ++ " [--no-banner] [-f]",
    "       uml-schema-cli validate [INPUT]", "       uml-schema-cli --version"]

/-- The exit status of a command. A failure is told on the error output. -/
def conclude (host : Host m) (action : ExceptT Failure m Unit) : m Nat := do
  match ← action.run with
  | .ok () => return 0
  | .error failure =>
    host.report (linesOf ["Error: " ++ failure.message])
    return 1

/-- Does what the arguments ask for. The result is the exit status: zero, one for a failure, two for
arguments that make no sense. -/
def run (host : Host m) (arguments : List String) : m Nat := do
  match Command.parse? arguments with
  | some (.generate a) => conclude host (generate host a)
  | some (.validate input) => conclude host (validate host input)
  | some .version =>
    host.print (linesOf [versionLine])
    return 0
  | none =>
    host.report usage
    return 2

end SchemaSynth.CommandLine
