import SchemaSynth.Schema.Statement
import SchemaSynth.Synthesis.Attribute
import SchemaSynth.Synthesis.Classification
import SchemaSynth.Synthesis.Naming

/-! The table of a class. -/
namespace SchemaSynth
namespace ClassNode

/-- The column of an attribute. One named like the key is renamed. -/
def attributeColumn (raw : String) : Column :=
  let (name, type) := Attribute.parse raw
  .plain (if name = "id" then "attr_id" else name) type

/-- The key, then a column for every attribute, or one for data of any shape if there are none. -/
def table (c : ClassNode) (tableName : String) : Table :=
  let columns :=
    if c.attributes = [] then [.plain "data" .jsonb] else c.attributes.map attributeColumn
  .plain tableName (.surrogateKey :: columns)

end ClassNode

namespace Diagram

def firstClasses (d : Diagram) : List ClassNode :=
  d.classes.zipIdx.filterMap fun (c, index) =>
    if (d.classes.take index).any (·.id == c.id) then none else some c

def tableBlock (names : TableNames) (c : ClassNode) : Option (List Statement) :=
  (names.get? c.id).map fun name =>
    [.comment ("Table for class " ++ name), .createTable (c.table name)]

/-- A block of statements for every class that is not a join class, in order. -/
def tableBlocks (d : Diagram) (names : TableNames) (classification : Classification) :
    List (List Statement) :=
  (d.firstClasses.filter fun c => !classification.isIntermediary c.id).filterMap (tableBlock names)

end Diagram
end SchemaSynth
