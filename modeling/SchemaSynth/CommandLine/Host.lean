import SchemaSynth.Calendar
import SchemaSynth.Files.FileSystem

/-! The system a command runs on. Commands are written over any such system. -/
namespace SchemaSynth.CommandLine

/-- What a command asks of its system. The two outputs take text as it is. -/
structure Host (m : Type → Type) where
  homeName : m String
  setting? : String → m (Option String)
  now : m Moment
  readInput : m (Except FileFault String)
  exists? : String → m Bool
  readFile : String → m (Except FileFault String)
  makeDirectory : String → m (Except FileFault Unit)
  isDirectory : String → m Bool
  writeFile : String → String → m (Except FileFault Unit)
  print : String → m Unit
  report : String → m Unit

/-- A system that is held in a value: files, input, variables, and what was printed and reported. -/
structure Machine where
  files : FileSystem
  homeName : String
  input : ByteArray
  settings : List (String × String)
  now : Moment
  printed : String
  reported : String

namespace Machine

def changeFiles (change : FileSystem → Except FileFault FileSystem) :
    StateM Machine (Except FileFault Unit) := fun machine =>
  match change machine.files with
  | .ok files => (.ok (), { machine with files := files })
  | .error fault => (.error fault, machine)

def host : Host (StateM Machine) where
  homeName := do return (← get).homeName
  setting? key := do return (← get).settings.lookup key
  now := do return (← get).now
  readInput := do return textOfBytes (← get).input
  exists? path := do return (← get).files.exists? path
  readFile path := do return (← get).files.read path
  makeDirectory path := changeFiles fun files => files.makeDirectory path
  isDirectory path := do return (← get).files.isDirectory path
  writeFile path text := changeFiles fun files => files.write path text.toUTF8
  print text := modify fun machine => { machine with printed := machine.printed ++ text }
  report text := modify fun machine => { machine with reported := machine.reported ++ text }

end Machine
end SchemaSynth.CommandLine
