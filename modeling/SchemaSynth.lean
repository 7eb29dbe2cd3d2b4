import SchemaSynth.Calendar
import SchemaSynth.CommandLine.Command
import SchemaSynth.CommandLine.Failure
import SchemaSynth.CommandLine.Findings
import SchemaSynth.CommandLine.Host
import SchemaSynth.CommandLine.Run
import SchemaSynth.Diagnosis.Codec
import SchemaSynth.Diagnosis.Inheritance
import SchemaSynth.Diagnosis.Naming
import SchemaSynth.Diagnosis.Report
import SchemaSynth.Diagram.Basic
import SchemaSynth.Diagram.Codec
import SchemaSynth.Diagram.Import
import SchemaSynth.Exchange.Request
import SchemaSynth.Exchange.Response
import SchemaSynth.Files.FileSystem
import SchemaSynth.Files.Path
import SchemaSynth.Json.Cursor
import SchemaSynth.Json.Decode
import SchemaSynth.Json.Fault
import SchemaSynth.Json.Printer
import SchemaSynth.Json.Reader
import SchemaSynth.Json.Scalar
import SchemaSynth.Json.Value
import SchemaSynth.Main
import SchemaSynth.Number.Binary64
import SchemaSynth.Number.Shortest
import SchemaSynth.Proofs.Choice
import SchemaSynth.Proofs.ClassTables
import SchemaSynth.Proofs.CompositeKeys
import SchemaSynth.Proofs.Coverage
import SchemaSynth.Proofs.CreatedTables
import SchemaSynth.Proofs.RecursivePairs
import SchemaSynth.Proofs.RuleOrder
import SchemaSynth.Proofs.Run
import SchemaSynth.Proofs.Sequence
import SchemaSynth.Schema.Codec
import SchemaSynth.Schema.Column
import SchemaSynth.Schema.Identifier
import SchemaSynth.Schema.Statement
import SchemaSynth.Schema.Table
import SchemaSynth.Schema.TableName
import SchemaSynth.Settings
import SchemaSynth.Synthesis.Application
import SchemaSynth.Synthesis.Attribute
import SchemaSynth.Synthesis.ClassTable
import SchemaSynth.Synthesis.Classification
import SchemaSynth.Synthesis.Codec
import SchemaSynth.Synthesis.Generation
import SchemaSynth.Synthesis.Naming
import SchemaSynth.Synthesis.Script
import SchemaSynth.Synthesis.Strategy
import SchemaSynth.Text.Blank
import SchemaSynth.Text.Bytes
import SchemaSynth.Text.Graphic
import SchemaSynth.Text.Lower
import SchemaSynth.Text.Quoted
import SchemaSynth.Toml.Reader
import SchemaSynth.Toml.Value
import SchemaSynth.Yaml.Lexer
import SchemaSynth.Yaml.Meaning
import SchemaSynth.Yaml.Node
import SchemaSynth.Yaml.ScalarText
import SchemaSynth.Yaml.Source
import SchemaSynth.Yaml.Tag
import SchemaSynth.Yaml.Token
import SchemaSynth.Proofs.Execution
import SchemaSynth.Proofs.Reapplication
import SchemaSynth.Proofs.AssignedNames
import SchemaSynth.Proofs.SafeStatements
import SchemaSynth.Proofs.JoinTables
import SchemaSynth.Proofs.JoinClasses
import SchemaSynth.Proofs.Reachability
import SchemaSynth.Proofs.InheritanceCycles
import SchemaSynth.Proofs.Prescriptions
import SchemaSynth.Proofs.StoredTables
import SchemaSynth.Proofs.ConstraintNames
import SchemaSynth.Proofs.ColumnClashes
import SchemaSynth.Proofs.Records
import SchemaSynth.Proofs.ImportedElements
import SchemaSynth.Proofs.ElementRoundTrip
import SchemaSynth.Proofs.LastKeys
import SchemaSynth.Proofs.RelationshipOrder
import SchemaSynth.Proofs.Renaming
import SchemaSynth.Proofs.Verdicts
import SchemaSynth.Proofs.IntroducedColumns
import SchemaSynth.Proofs.GuardedLines
import SchemaSynth.Proofs.NameLengths
import SchemaSynth.Proofs.StatementLines
import SchemaSynth.Proofs.ScriptLines
import SchemaSynth.Proofs.PassedScalars
import SchemaSynth.Proofs.Rereading
import SchemaSynth.Proofs.RequestBoards
import SchemaSynth.Proofs.FileTrees
import SchemaSynth.Proofs.Traces
import SchemaSynth.Proofs.PrintedResponses
import SchemaSynth.Proofs.FieldOrder
import SchemaSynth.Proofs.RoundTrips
import SchemaSynth.Proofs.PrintedScalars
import SchemaSynth.Proofs.PrintedValues
import SchemaSynth.Proofs.PrintedEncodings
import SchemaSynth.Proofs.AccumulatedKeys
import SchemaSynth.Proofs.AnnouncedRenames
import SchemaSynth.Proofs.CyclePaths
import SchemaSynth.Proofs.TableAccounts
import SchemaSynth.Proofs.TableLines
import SchemaSynth.Proofs.RepeatedIds
import SchemaSynth.Proofs.NamingConflicts
import SchemaSynth.Proofs.UnusableNames
import SchemaSynth.Proofs.AcceptedClasses
import SchemaSynth.Proofs.DistinctColumns
import SchemaSynth.Proofs.Discriminators
import SchemaSynth.Proofs.FieldSpellings
import SchemaSynth.Proofs.Spellings
import SchemaSynth.Proofs.SnakeCase
import SchemaSynth.Proofs.Declarations
import SchemaSynth.Proofs.ByteCuts
