import PathWitness.ClassTable
import PathWitness.CommandLine
import PathWitness.CommandLine.Arguments
import PathWitness.CommandLine.Workspace
import PathWitness.Const
import PathWitness.Descriptor
import PathWitness.Duration
import PathWitness.Expression.Parse
import PathWitness.Expression.Token
import PathWitness.Fault
import PathWitness.FileName
import PathWitness.Heap
import PathWitness.Journal
import PathWitness.Json.Decode
import PathWitness.Json.Value
import PathWitness.Literal
import PathWitness.Main
import PathWitness.Model
import PathWitness.Number.Floating
import PathWitness.Number.Numeral
import PathWitness.Number.Power
import PathWitness.Number.Shortest
import PathWitness.Operator
import PathWitness.Origin
import PathWitness.PathCondition
import PathWitness.PathState
import PathWitness.PathState.Lookup
import PathWitness.Primitive
import PathWitness.Proofs.ClassTable
import PathWitness.Proofs.ClassTable.Order
import PathWitness.Proofs.Computation
import PathWitness.Proofs.Descriptor
import PathWitness.Proofs.Descriptor.Segments
import PathWitness.Proofs.Evaluation
import PathWitness.Proofs.Expression.Folding
import PathWitness.Proofs.Expression.Phrase
import PathWitness.Proofs.Expression.Precedence
import PathWitness.Proofs.Expression.Reads
import PathWitness.Proofs.Expression.Rendered
import PathWitness.Proofs.Expression.Scanning
import PathWitness.Proofs.Heap
import PathWitness.Proofs.Literal
import PathWitness.Proofs.Obeys
import PathWitness.Proofs.Origin
import PathWitness.Proofs.PathCondition
import PathWitness.Proofs.PathState.Aliasing
import PathWitness.Proofs.PathState.Anchored
import PathWitness.Proofs.PathState.Change
import PathWitness.Proofs.PathState.Coherence
import PathWitness.Proofs.PathState.Elements
import PathWitness.Proofs.PathState.Follows
import PathWitness.Proofs.PathState.Frame
import PathWitness.Proofs.PathState.Lookup
import PathWitness.Proofs.PathState.Reachable
import PathWitness.Proofs.PathState.Rereading
import PathWitness.Proofs.Resolution
import PathWitness.Proofs.Resolution.Candidates
import PathWitness.Proofs.Resolution.Ended
import PathWitness.Proofs.Resolution.Failure
import PathWitness.Proofs.Resolution.Fields
import PathWitness.Proofs.Resolution.Outcome
import PathWitness.Proofs.Resolution.Stable
import PathWitness.Proofs.Rule.Firing
import PathWitness.Proofs.Rule.Runs
import PathWitness.Proofs.Rule.Table
import PathWitness.Proofs.Scenario.BodyFailure
import PathWitness.Proofs.Scenario.Exclusive
import PathWitness.Proofs.Scenario.Forgiving
import PathWitness.Proofs.Scenario.Given
import PathWitness.Proofs.Scenario.Identifiers
import PathWitness.Proofs.Scenario.Spared
import PathWitness.Proofs.Scenario.Steps
import PathWitness.Proofs.Search.Boundary
import PathWitness.Proofs.Search.Exhaustive
import PathWitness.Proofs.Search.Memory
import PathWitness.Proofs.Search.Seeds
import PathWitness.Proofs.Search.Soundness
import PathWitness.Proofs.Settings
import PathWitness.Proofs.SymbolTable
import PathWitness.Proofs.SymbolTable.Copies
import PathWitness.Proofs.Term.Exact
import PathWitness.Proofs.Term.Reading
import PathWitness.Proofs.Term.ShortCircuit
import PathWitness.Proofs.Term.Symbols
import PathWitness.Proofs.Term.Text
import PathWitness.Proofs.Term.WellTyped
import PathWitness.Proofs.TestCase.Addressing
import PathWitness.Proofs.TestCase.Assembly
import PathWitness.Proofs.TestCase.Classification
import PathWitness.Proofs.TestCase.Declarations
import PathWitness.Proofs.TestCase.Holding
import PathWitness.Proofs.TestCase.Indexing
import PathWitness.Proofs.TestCase.JavaHeap
import PathWitness.Proofs.TestCase.Placement
import PathWitness.Proofs.TestCase.Pool
import PathWitness.Proofs.TestCase.Realises
import PathWitness.Proofs.TestCase.SymbolValues
import PathWitness.Proofs.TestCase.Walk
import PathWitness.Resolution
import PathWitness.Rule
import PathWitness.Rule.Document
import PathWitness.Scenario
import PathWitness.Scenario.Document
import PathWitness.Scenario.Execution
import PathWitness.Scenario.Run
import PathWitness.Search.Backtracking
import PathWitness.Search.Cache
import PathWitness.Search.Seed
import PathWitness.Search.Settings
import PathWitness.Search.Solver
import PathWitness.Settings
import PathWitness.Settings.Document
import PathWitness.Symbol
import PathWitness.SymbolTable
import PathWitness.Term
import PathWitness.Term.Constants
import PathWitness.Term.Eval
import PathWitness.Term.Render
import PathWitness.Term.Symbols
import PathWitness.Term.Typing
import PathWitness.TestCase.Case
import PathWitness.TestCase.Generator
import PathWitness.TestCase.Java
import PathWitness.TestCase.Pool
import PathWitness.TestCase.Setup
import PathWitness.Text.Blank
import PathWitness.Text.Fold
import PathWitness.Text.Letter
import PathWitness.Text.Octet
import PathWitness.Text.Printable
import PathWitness.Text.Quoted
import PathWitness.Text.Ranges
import PathWitness.Text.Replace
import PathWitness.Yaml.Character
import PathWitness.Yaml.Cursor
import PathWitness.Yaml.Decode
import PathWitness.Yaml.Event
import PathWitness.Yaml.Meaning
import PathWitness.Yaml.Node
import PathWitness.Yaml.Scalar
import PathWitness.Yaml.Tag
import PathWitness.Yaml.Token
