import SchemaSynth.Files.Path

/-! A tree of files and directories, and what a program can do to it. -/
namespace SchemaSynth

inductive FileFault
  | notFound
  | alreadyExists
  | notDirectory
  | isDirectory
  | nameTooLong
  | zeroInName
  | notText
  | other (description : String)
deriving DecidableEq

def FileFault.message : FileFault → String
  | .notFound => "No such file or directory (os error 2)"
  | .alreadyExists => "File exists (os error 17)"
  | .notDirectory => "Not a directory (os error 20)"
  | .isDirectory => "Is a directory (os error 21)"
  | .nameTooLong => "File name too long (os error 36)"
  | .zeroInName => "file name contained an unexpected NUL byte"
  | .notText => "stream did not contain valid UTF-8"
  | .other description => description

def textOfBytes (bytes : ByteArray) : Except FileFault String :=
  match String.fromUTF8? bytes with
  | some s => .ok s
  | none => .error .notText

inductive Entry
  | file (content : ByteArray)
  | directory (entries : List (String × Entry))

abbrev Entries := List (String × Entry)

def Entries.put (name : String) (entry : Entry) : Entries → Entries
  | [] => [(name, entry)]
  | (n, e) :: rest => if n = name then (n, entry) :: rest else (n, e) :: put name entry rest

mutual

def Entry.files : Entry → List (List String × ByteArray)
  | .file content => [([], content)]
  | .directory entries => Entries.files entries

def Entries.files : List (String × Entry) → List (List String × ByteArray)
  | [] => []
  | (name, entry) :: rest =>
    (entry.files.map fun (names, content) => (name :: names, content)) ++ Entries.files rest

end

/-- A place of a tree: what stands there, if anything does, and the way to it, the last step first.
Of a step there is its name and all that stands in the directory it starts in. -/
structure Spot where
  entry : Option Entry
  way : List (String × Entries)

namespace Spot

/-- The directory that a spot is in. The root is its own. -/
def outer (spot : Spot) : Spot :=
  match spot.way with
  | [] => spot
  | (_, entries) :: way => ⟨some (.directory entries), way⟩

def enter (spot : Spot) (name : String) (entries : Entries) : Spot :=
  ⟨entries.lookup name, (name, entries) :: spot.way⟩

def rebuild : List (String × Entries) → Entry → Entry
  | [], entry => entry
  | (name, entries) :: way, entry => rebuild way (.directory (Entries.put name entry entries))

def put (spot : Spot) (entry : Entry) : Entry :=
  rebuild spot.way entry

def nameLimit : Nat := 255

/-- The spot a step leads to. It has to start in a directory that is there. -/
def step (spot : Spot) (name : String) : Except FileFault Spot :=
  match spot.entry with
  | some (.directory entries) =>
    if nameLimit < name.utf8ByteSize then .error .nameTooLong
    else if Path.isIdle name then .ok spot
    else if name = ".." then .ok spot.outer
    else .ok (spot.enter name entries)
  | some (.file _) => .error .notDirectory
  | none => .error .notFound

end Spot

structure FileSystem where
  root : Entry
  home : List String

namespace FileSystem

def pathLimit : Nat := 4095

/-- The steps of a path. The empty path leads nowhere. -/
def stepsOf (path : String) : Except FileFault (List String) :=
  if path.toList.any (·.toNat == 0) then .error .zeroInName
  else if path = "" then .error .notFound
  else if pathLimit < path.utf8ByteSize then .error .nameTooLong
  else .ok (Path.steps path)

def locateSteps (fs : FileSystem) (steps : List String) : Except FileFault Spot :=
  (if steps.head? = some "" then steps else fs.home ++ steps).foldlM Spot.step ⟨some fs.root, []⟩

def locate (fs : FileSystem) (path : String) : Except FileFault Spot := do
  fs.locateSteps (← stepsOf path)

def exists? (fs : FileSystem) (path : String) : Bool :=
  match fs.locate path with
  | .ok spot => spot.entry.isSome
  | .error _ => false

def isDirectory (fs : FileSystem) (path : String) : Bool :=
  match fs.locate path with
  | .ok ⟨some (.directory _), _⟩ => true
  | _ => false

def read (fs : FileSystem) (path : String) : Except FileFault String := do
  match (← fs.locate path).entry with
  | some (.file content) => textOfBytes content
  | some (.directory _) => .error .isDirectory
  | none => .error .notFound

/-- The tree with a file's content, whether or not the file was there. A path that ends in a slash
is no file. -/
def write (fs : FileSystem) (path : String) (content : ByteArray) : Except FileFault FileSystem := do
  let steps ← stepsOf path
  if steps.getLast? = some "" then
    let _ ← fs.locateSteps ((Path.withoutSlashes steps).dropLast ++ ["."])
    .error .isDirectory
  else
    match ← fs.locateSteps steps with
    | ⟨some (.directory _), _⟩ => .error .isDirectory
    | spot => .ok { fs with root := spot.put (.file content) }

def makeDirectory (fs : FileSystem) (path : String) : Except FileFault FileSystem := do
  let spot ← fs.locate path
  if spot.entry.isSome then .error .alreadyExists
  else .ok { fs with root := spot.put (.directory []) }

end FileSystem
end SchemaSynth
