import SchemaSynth.Diagram.Import
import SchemaSynth.Settings

/-! Why a command ends without success. -/
namespace SchemaSynth.CommandLine

inductive Failure
  | unreadableSettings (path : String) (fault : FileFault)
  | badSettings (path : String)
  | outputExists (path : String)
  | unreadableInput (fault : FileFault)
  | fileMissing (path : String)
  | unreadableFile (path : String) (fault : FileFault)
  | notImported (cause : ImportError)
  | directoryNotMade (path : String) (fault : FileFault)
  | unwritableFile (path : String) (fault : FileFault)
  | problemsFound (count : Nat)

def Failure.message : Failure → String
  | .unreadableSettings path fault =>
    "Configuration error: Failed to read " ++ path ++ ": " ++ fault.message
  | .badSettings path => "Configuration error: Invalid " ++ path ++ ": " ++ Settings.unreadable
  | .outputExists path =>
    "Invalid argument: Output file exists: " ++ path ++ ". Use --force to overwrite."
  | .unreadableInput fault => "Invalid argument: Failed to read stdin: " ++ fault.message
  | .fileMissing path => "File not found: " ++ path
  | .unreadableFile path fault => "Failed to read file " ++ path ++ ": " ++ fault.message
  | .notImported cause => "Import error: " ++ cause.message
  | .directoryNotMade path fault =>
    "Failed to write file " ++ path ++ ": Failed to create directory: " ++ fault.message
  | .unwritableFile path fault => "Failed to write file " ++ path ++ ": " ++ fault.message
  | .problemsFound count => "Validation failed: " ++ toString count ++ " problem(s) found"

end SchemaSynth.CommandLine
