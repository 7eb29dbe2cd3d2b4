import SchemaSynth.Yaml.Tag

/-! Tokens of a YAML text. -/
namespace SchemaSynth.Yaml

/-- A token. Blocks are opened and closed by their indentation, flow collections by brackets; a tag
is its handle and its suffix, a scalar its text and whether it is written without quotes. -/
inductive Token
  | versionDirective (major minor : Nat)
  | tagDirective (handle : String) (start : Tag)
  | documentStart
  | documentEnd
  | blockSequence
  | blockMapping
  | blockEnd
  | flowSequence
  | flowSequenceEnd
  | flowMapping
  | flowMappingEnd
  | entry
  | comma
  | key
  | value
  | alias (name : String)
  | anchor (name : String)
  | tag (handle : String) (suffix : Tag)
  | scalar (text : String) (plain : Bool)
  | streamEnd
deriving DecidableEq

end SchemaSynth.Yaml
