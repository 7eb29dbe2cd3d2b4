import SchemaSynth.Schema.Identifier
import SchemaSynth.Text.Lower

/-! Names that cannot stand for a table without quotes. -/
namespace SchemaSynth

inductive NameFault
  | empty
  | leadingDigit (name : String)
  | reservedWord (word : String)
deriving DecidableEq

def NameFault.message : NameFault → String
  | .empty => "table name cannot be empty"
  | .leadingDigit name => "table name must start with a letter or underscore: " ++ name
  | .reservedWord word => "table name cannot be a reserved word: " ++ word

namespace TableName

def ofClassName (name : String) : String :=
  Identifier.truncate (Identifier.sanitize name)

def reservedWords : List String :=
  ["all", "analyse", "analyze", "and", "any", "array", "as", "asc", "both", "case", "cast", "check",
    "collate", "column", "constraint", "create", "current_date", "current_role", "current_time",
    "current_timestamp", "current_user", "default", "deferrable", "desc", "distinct", "do", "else",
    "end", "except", "false", "fetch", "for", "foreign", "from", "grant", "group", "having", "in",
    "initially", "intersect", "into", "lateral", "leading", "limit", "localtime", "not", "null",
    "offset", "on", "only", "or", "order", "placing", "primary", "references", "returning", "select",
    "session_user", "some", "symmetric", "table", "then", "to", "trailing", "true", "union", "unique",
    "user", "using", "variadic", "when", "where", "window", "with"]

/-- Whether a word is reserved, in whatever case. -/
def isReserved (word : String) : Bool :=
  reservedWords.contains (Text.lowered word)

def fault? (name : String) : Option NameFault :=
  match name.toList with
  | [] => some .empty
  | c :: _ =>
    if c.isDigit then some (.leadingDigit name)
    else if isReserved name then some (.reservedWord name)
    else none

end TableName
end SchemaSynth
