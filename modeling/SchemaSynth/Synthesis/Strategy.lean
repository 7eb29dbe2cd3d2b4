import SchemaSynth.Schema.Statement
import SchemaSynth.Synthesis.Classification
import SchemaSynth.Synthesis.Naming

/-! How a relationship is carried into the schema. A strategy is chosen for each edge, the first
that fits of an ordered list, and its statements follow from it alone, but for the keys of parts. -/
namespace SchemaSynth

/-- The rules, in the order of their precedence. -/
inductive Rule
  | missingEndpoint
  | selfReference
  | recursiveManyToMany
  | composition
  | generalization
  | aggregation
  | manyToMany
  | oneToMany
  | fallback
deriving DecidableEq

def Rule.display : Rule → String
  | .missingEndpoint => "missing endpoint"
  | .selfReference => "self reference"
  | .recursiveManyToMany => "recursive many-to-many"
  | .composition => "composition"
  | .generalization => "generalization"
  | .aggregation => "aggregation"
  | .manyToMany => "many-to-many"
  | .oneToMany => "one-to-many"
  | .fallback => "fallback"

/-- What is done about an edge, by the tables it concerns. -/
inductive Strategy
  | skipUnknown
  | skipJoinClass (source target join : String)
  | selfReference (table : String)
  | recursive (pair : RecursivePair) (source target : String)
  | composition (whole part : String)
  | generalization (parent child : String)
  | aggregation (whole part : String)
  | manyToMany (source target : String)
  | oneToMany (one many : String)
  | fallback (source target : String)
deriving DecidableEq

namespace Strategy

/-- The rule a strategy follows. Both ways to skip an edge are one rule. -/
def rule : Strategy → Rule
  | .skipUnknown => .missingEndpoint
  | .skipJoinClass .. => .missingEndpoint
  | .selfReference _ => .selfReference
  | .recursive .. => .recursiveManyToMany
  | .composition .. => .composition
  | .generalization .. => .generalization
  | .aggregation .. => .aggregation
  | .manyToMany .. => .manyToMany
  | .oneToMany .. => .oneToMany
  | .fallback .. => .fallback

def ofKind (e : RelationshipEdge) (source target : String) : Strategy :=
  let backwards := e.multiplicityTo.isOne && e.multiplicityFrom.isManyOrUnspecified
  match e.kind with
  | .composition => .composition source target
  | .generalization => .generalization source target
  | .aggregation => if backwards then .aggregation target source else .aggregation source target
  | .association =>
    if e.multiplicityFrom.isMany && e.multiplicityTo.isMany then .manyToMany source target
    else if e.multiplicityFrom.isOne && e.multiplicityTo.isManyOrUnspecified then
      .oneToMany source target
    else if backwards then .oneToMany target source
    else .fallback source target

def joinEnd? (classification : Classification) (e : RelationshipEdge) : Option String :=
  [e.source, e.target].find? classification.isIntermediary

/-- The strategy for the edge at a position. An edge to a join class is skipped unless it is one of
the two that make the class one. -/
def choose (names : TableNames) (classification : Classification) (e : RelationshipEdge)
    (index : Nat) : Strategy :=
  match names.get? e.source, names.get? e.target with
  | some source, some target =>
    match classification.pairFor? index, joinEnd? classification e with
    | none, some id => .skipJoinClass source target ((names.get? id).getD id)
    | pair?, _ =>
      if e.isSelfReference then .selfReference source
      else match pair? with
        | some pair => .recursive pair source ((names.get? pair.target).getD pair.target)
        | none => ofKind e source target
  | _, _ => .skipUnknown

/-- The positions of the edges that a strategy uses up. -/
def edges (index : Nat) : Strategy → List Nat
  | .recursive pair _ _ => [pair.first, pair.second]
  | _ => [index]

def referenceColumn (table : String) : String :=
  Identifier.suffixed table "_id"

def referenceOn (table referenced : String) (onDelete : OnDelete) : List Statement :=
  let column := referenceColumn referenced
  [.addColumn table (.reference column true),
    .addForeignKey (.between table column referenced onDelete)]

def selfReferenceStatements (table : String) : List Statement :=
  [.comment ("Self-referencing relationship on " ++ table),
    .addColumn table (.reference "parent_id" true),
    .addForeignKey
      ((ForeignKey.between table "parent_id" table .setNull).named ("fk_" ++ table ++ "_parent"))]

/-- The join table of a class with itself: two references, the key over both, never to the same row.
-/
def recursiveTable (source : String) : Table :=
  let join := Identifier.joined [source, "recursiva_rel"]
  let first := Identifier.suffixed source "_id1"
  let second := Identifier.suffixed source "_id2"
  let key (column number : String) : ForeignKey :=
    (ForeignKey.between join column source .cascade).named
      ("fk_" ++ join ++ "_" ++ source ++ "_" ++ number)
  { name := join
    columns := [.reference first false, .reference second false]
    compositeKey := some [first, second]
    uniqueKeys := []
    foreignKeys := [key first "1", key second "2"]
    checks := [⟨Identifier.joined ["chk", join, "distinct"], first ++ " <> " ++ second⟩] }

/-- The join table of two classes: a key of its own, two references, unique together. -/
def joinTable (source target : String) : Table :=
  let join := Identifier.joined [source, target, "rel"]
  let sourceColumn := referenceColumn source
  let targetColumn := referenceColumn target
  { name := join
    columns := [.surrogateKey, .reference sourceColumn false, .reference targetColumn false]
    compositeKey := none
    uniqueKeys := [[sourceColumn, targetColumn]]
    foreignKeys :=
      [.between join sourceColumn source .cascade, .between join targetColumn target .cascade]
    checks := [] }

def compositionStatements (whole part : String) (key : List String) : List Statement :=
  let column := referenceColumn whole
  [.comment ("Composition: " ++ part ++ " is part of " ++ whole),
    .addColumn part (.reference column false),
    .replacePrimaryKey part key,
    .addForeignKey (.between part column whole .cascade)]

def generalizationStatements (parent child : String) : List Statement :=
  let column := referenceColumn parent
  let discriminator := Identifier.truncate ("tipo_" ++ child)
  [.comment ("Generalization: " ++ child ++ " inherits from " ++ parent),
    .addColumn child (.reference column true),
    .addForeignKey (.between child column parent .cascade),
    .addColumn child ((Column.plain discriminator (.varchar 50)).withDefault ("'" ++ child ++ "'")),
    .createIndex (.named ("idx_" ++ child ++ "_" ++ column) child column),
    .createIndex (.named ("idx_" ++ child ++ "_tipo") child discriminator)]

def skipped (e : RelationshipEdge) (source target reason : String) : Statement :=
  .comment ("Skipped " ++ e.kind.name ++ " relationship from " ++ source ++ " to " ++ target ++ ": "
    ++ reason)

/-- The statements of a strategy for an edge, with the key of the part if the edge is a composition.
-/
def statements (e : RelationshipEdge) (key : List String) : Strategy → List Statement
  | .skipUnknown => [skipped e e.source e.target "class not found"]
  | .skipJoinClass source target join =>
    [skipped e source target (join ++ " is a join class without a table")]
  | .selfReference table => selfReferenceStatements table
  | .recursive _ source target =>
    [.comment ("Recursive many-to-many on " ++ source ++ " (join class " ++ target ++ ")"),
      .createTable (recursiveTable source)]
  | .composition whole part => compositionStatements whole part key
  | .generalization parent child => generalizationStatements parent child
  | .aggregation whole part =>
    .comment ("Aggregation: " ++ whole ++ " groups " ++ part) :: referenceOn part whole .setNull
  | .manyToMany source target =>
    [.comment ("Many-to-many between " ++ source ++ " and " ++ target),
      .createTable (joinTable source target)]
  | .oneToMany one many =>
    .comment ("One-to-many: " ++ one ++ " to " ++ many) :: referenceOn many one .setNull
  | .fallback source target =>
    .comment ("Association: " ++ target ++ " references " ++ source)
      :: referenceOn target source .setNull

end Strategy
end SchemaSynth
