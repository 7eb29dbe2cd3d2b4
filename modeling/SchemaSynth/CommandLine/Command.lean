import SchemaSynth.Synthesis.Generation

/-! Commands and the arguments they are given by. -/
namespace SchemaSynth.CommandLine

structure GenerateArguments where
  input : String
  output : Option String
  asJson : Bool
  suffixCollisions : Bool
  omitBanner : Bool
  force : Bool
deriving DecidableEq

def GenerateArguments.adjust (a : GenerateArguments) (options : Options) : Options :=
  { collisionPolicy := if a.suffixCollisions then .suffix else options.collisionPolicy
    includeBanner := options.includeBanner && !a.omitBanner }

inductive Command
  | generate (arguments : GenerateArguments)
  | validate (input : String)
  | version
deriving DecidableEq

def standardInput : String := "-"

/-- The options given so far; each may be given once. -/
structure Given where
  input : Option String
  output : Option String
  json : Bool
  suffix : Bool
  bare : Bool
  force : Bool

namespace Given

def nothing : Given := ⟨none, none, false, false, false, false⟩

def withInput (word : String) (g : Given) : Option Given :=
  if g.input.isSome then none else some { g with input := some word }

def withOutput (path : String) (g : Given) : Option Given :=
  if g.output.isSome ∨ path = "" then none else some { g with output := some path }

def withForce (g : Given) : Option Given :=
  if g.force then none else some { g with force := true }

def withFlag (word : String) (g : Given) : Option Given :=
  if word = "--json" ∧ !g.json then some { g with json := true }
  else if word = "--suffix-collisions" ∧ !g.suffix then some { g with suffix := true }
  else if word = "--no-banner" ∧ !g.bare then some { g with bare := true }
  else if word = "--force" then g.withForce
  else none

def arguments (g : Given) : GenerateArguments :=
  ⟨g.input.getD standardInput, g.output, g.json, g.suffix, g.bare, g.force⟩

end Given

def outputKey : List Char :=
  ['-','-','o','u','t','p','u','t','=']

def dropEquals : List Char → List Char
  | '=' :: cs => cs
  | cs => cs

/-- Letters behind one dash. The flag is whether the output path is the next word. -/
def withLetters (g : Given) : List Char → Option (Given × Bool)
  | [] => some (g, false)
  | 'f' :: cs => do withLetters (← g.withForce) cs
  | ['o'] => some (g, true)
  | 'o' :: cs => do return (← g.withOutput (String.ofList (dropEquals cs)), false)
  | _ => none

/-- What a word that starts with a dash asks for. The flag is whether the output path is the next
word. -/
def withOption (g : Given) (word : String) : Option (Given × Bool) :=
  if word = "--output" then some (g, true)
  else if outputKey.isPrefixOf word.toList then do
    return (← g.withOutput (String.ofList (word.toList.drop outputKey.length)), false)
  else match word.toList with
    | '-' :: '-' :: _ => do return (← g.withFlag word, false)
    | '-' :: letters => withLetters g letters
    | _ => none

def isOption (word : String) : Bool :=
  match word.toList with
  | '-' :: _ :: _ => true
  | _ => false

def readPlain (g : Given) : List String → Option Given
  | [] => some g
  | word :: rest => do readPlain (← g.withInput word) rest

/-- The words of `generate`. Behind a double dash there are no options. -/
def readGenerate (g : Given) : List String → Option Given
  | [] => some g
  | word :: rest =>
    if word = "--" then readPlain g rest
    else if isOption word then
      match withOption g word, rest with
      | some (g, false), rest => readGenerate g rest
      | some (g, true), path :: rest =>
        if isOption path then none else do readGenerate (← g.withOutput path) rest
      | _, _ => none
    else do readGenerate (← g.withInput word) rest

def readValidate (g : Given) : List String → Option Given
  | [] => some g
  | word :: rest =>
    if word = "--" then readPlain g rest
    else if isOption word then none
    else do readValidate (← g.withInput word) rest

def asksVersion (word : String) : Bool :=
  word = "--version" || ['-','V'].isPrefixOf word.toList

/-- The command that arguments give, or `none` if they make no sense. -/
def Command.parse? : List String → Option Command
  | [] => none
  | word :: rest =>
    if asksVersion word then some .version
    else if word = "generate" then
      (readGenerate .nothing rest).map fun g => .generate g.arguments
    else if word = "validate" then
      (readValidate .nothing rest).map fun g => .validate g.arguments.input
    else none

end SchemaSynth.CommandLine
