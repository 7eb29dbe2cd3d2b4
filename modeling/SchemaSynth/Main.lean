import SchemaSynth.CommandLine.Run
import Std.Time.DateTime.Timestamp

/-! The program: commands on the files, streams and clock of the system it runs on. -/
namespace SchemaSynth.CommandLine

private def faultOf : IO.Error → FileFault
  | .noFileOrDirectory .. => .notFound
  | .alreadyExists .. => .alreadyExists
  | .inappropriateType _ 20 _ => .notDirectory
  | .inappropriateType _ 21 _ => .isDirectory
  | .invalidArgument _ 36 _ => .nameTooLong
  | e => .other (toString e)

private def attempt {α : Type} (action : IO α) : IO (Except FileFault α) := do
  try return .ok (← action)
  catch e => return .error (faultOf e)

private def readText (action : IO ByteArray) : IO (Except FileFault String) := do
  return (← attempt action) >>= textOfBytes

private def currentMoment : IO Moment := do
  return ⟨(← Std.Time.Timestamp.now).toSecondsSinceUnixEpoch.val, false⟩

private def leads (path : String) : IO Bool := do
  return (← attempt (IO.FS.realPath path)).isOk

def systemHost : Host IO where
  homeName := do return toString (← IO.currentDir)
  setting? key := IO.getEnv key
  now := currentMoment
  readInput := do readText (← IO.getStdin).readBinToEnd
  exists? := leads
  readFile path := readText (IO.FS.readBinFile path)
  makeDirectory path := attempt (IO.FS.createDir path)
  isDirectory path := leads (path ++ "/.")
  writeFile path text := attempt (IO.FS.writeFile path text)
  print text := IO.print text
  report text := IO.eprint text

end SchemaSynth.CommandLine

def main (arguments : List String) : IO UInt32 := do
  return (← SchemaSynth.CommandLine.run SchemaSynth.CommandLine.systemHost arguments).toUInt32
