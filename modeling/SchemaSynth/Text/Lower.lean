/-! Lower case, as far as it can produce an ASCII letter. -/
namespace SchemaSynth.Text

/-- The lower-case form of every character whose form is one ASCII letter: the ASCII capitals and
the kelvin sign. Other characters are kept, so a lowered text equals an ASCII word exactly if its
full lower-case form does. -/
def lower (c : Char) : Char :=
  if c.toNat == 0x212A then 'k' else c.toLower

def lowered (s : String) : String :=
  String.ofList (s.toList.map lower)

end SchemaSynth.Text
