/-! Tags of YAML nodes. -/
namespace SchemaSynth.Yaml

/-- A tag, as the bytes of its address. They need not be UTF-8, since a tag can write any bytes by
their numbers. -/
abbrev Tag := List UInt8

namespace Tag

def ofText (s : String) : Tag :=
  s.toUTF8.toList

def core (name : String) : Tag :=
  ofText ("tag:yaml.org,2002:" ++ name)

def cut (bytes : List UInt8) : Tag :=
  bytes.takeWhile (· != 0)

def isMarked (t : Tag) : Bool :=
  t.head? == some 0x21

def isText (t : Tag) : Bool :=
  (String.fromUTF8? ⟨t.toArray⟩).isSome

def isLocal (t : Tag) : Bool :=
  t.isMarked && t.isText

def width? (first : UInt8) : Option Nat :=
  if first &&& 0x80 == 0 then some 1
  else if first &&& 0xE0 == 0xC0 then some 2
  else if first &&& 0xF0 == 0xE0 then some 3
  else if first &&& 0xF8 == 0xF0 then some 4
  else none

def isFurther (b : UInt8) : Bool :=
  b &&& 0xC0 == 0x80

end Tag
end SchemaSynth.Yaml
