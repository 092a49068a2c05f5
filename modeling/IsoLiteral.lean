import IsoLiteral.Artifact.Argument
import IsoLiteral.Artifact.Field
import IsoLiteral.Artifact.Id
import IsoLiteral.Artifact.Normalization
import IsoLiteral.Artifact.Parameters
import IsoLiteral.Artifact.Reader
import IsoLiteral.Decimal.Binary64
import IsoLiteral.Decimal.Shortest
import IsoLiteral.Declaration.Basic
import IsoLiteral.Declaration.OfTree
import IsoLiteral.Declaration.StoreKey
import IsoLiteral.Declaration.TypeExpr
import IsoLiteral.Declaration.Value
import IsoLiteral.Declaration.ValueOrder
import IsoLiteral.Diagnostic.Basic
import IsoLiteral.Diagnostic.Filter
import IsoLiteral.Diagnostic.Kind
import IsoLiteral.Diagnostic.Printer
import IsoLiteral.Flags
import IsoLiteral.Graph.Component
import IsoLiteral.Graph.Cycle
import IsoLiteral.Graph.Traversal
import IsoLiteral.Hash.Sha256
import IsoLiteral.Interner
import IsoLiteral.Json.Basic
import IsoLiteral.Json.Decode
import IsoLiteral.Json.Raw
import IsoLiteral.Operation.Context
import IsoLiteral.Operation.Entrypoint
import IsoLiteral.Operation.Key
import IsoLiteral.Operation.Merged
import IsoLiteral.Operation.Plan
import IsoLiteral.Operation.QueryText
import IsoLiteral.Operation.Reference
import IsoLiteral.Operation.Request
import IsoLiteral.Proofs.Artifact.Agreement
import IsoLiteral.Proofs.Artifact.Folding
import IsoLiteral.Proofs.Artifact.Reader
import IsoLiteral.Proofs.Artifact.References
import IsoLiteral.Proofs.Artifact.Renaming
import IsoLiteral.Proofs.Artifact.StorePath
import IsoLiteral.Proofs.Declaration.Clean
import IsoLiteral.Proofs.Declaration.Layout
import IsoLiteral.Proofs.Declaration.Lowering
import IsoLiteral.Proofs.Declaration.Outcome
import IsoLiteral.Proofs.Declaration.Plain
import IsoLiteral.Proofs.Declaration.Reporting
import IsoLiteral.Proofs.Declaration.RoundTrip
import IsoLiteral.Proofs.Declaration.Spans
import IsoLiteral.Proofs.Declaration.Values
import IsoLiteral.Proofs.Diagnostic.Filtered
import IsoLiteral.Proofs.Diagnostic.Plain
import IsoLiteral.Proofs.Graph.Component
import IsoLiteral.Proofs.Graph.Cycle
import IsoLiteral.Proofs.Graph.Reference
import IsoLiteral.Proofs.Graph.Traversal
import IsoLiteral.Proofs.Interner.Stability
import IsoLiteral.Proofs.Operation.Arguments
import IsoLiteral.Proofs.Operation.Binding
import IsoLiteral.Proofs.Operation.Closed
import IsoLiteral.Proofs.Operation.Commuting
import IsoLiteral.Proofs.Operation.Emitted
import IsoLiteral.Proofs.Operation.EmptySets
import IsoLiteral.Proofs.Operation.Extension
import IsoLiteral.Proofs.Operation.Identity
import IsoLiteral.Proofs.Operation.Inlining
import IsoLiteral.Proofs.Operation.KeyOrder
import IsoLiteral.Proofs.Operation.Layout
import IsoLiteral.Proofs.Operation.Path
import IsoLiteral.Proofs.Operation.Planned
import IsoLiteral.Proofs.Operation.Plans
import IsoLiteral.Proofs.Operation.Printable
import IsoLiteral.Proofs.Operation.Printed
import IsoLiteral.Proofs.Operation.Reads
import IsoLiteral.Proofs.Operation.Rearranged
import IsoLiteral.Proofs.Operation.Refetching
import IsoLiteral.Proofs.Operation.Renaming
import IsoLiteral.Proofs.Operation.ResponseName
import IsoLiteral.Proofs.Operation.Sets
import IsoLiteral.Proofs.Operation.Termination
import IsoLiteral.Proofs.Operation.Valid
import IsoLiteral.Proofs.Resolution.Checking
import IsoLiteral.Proofs.Resolution.Coercion
import IsoLiteral.Proofs.Resolution.Directives
import IsoLiteral.Proofs.Resolution.Extension
import IsoLiteral.Proofs.Resolution.Faithful
import IsoLiteral.Proofs.Resolution.Findings
import IsoLiteral.Proofs.Resolution.Form
import IsoLiteral.Proofs.Resolution.Layout
import IsoLiteral.Proofs.Resolution.Legal
import IsoLiteral.Proofs.Resolution.Mirrors
import IsoLiteral.Proofs.Resolution.Outcome
import IsoLiteral.Proofs.Resolution.RefetchSite
import IsoLiteral.Proofs.Resolution.Renaming
import IsoLiteral.Proofs.Resolution.Reordered
import IsoLiteral.Proofs.Resolution.Satisfaction
import IsoLiteral.Proofs.Resolution.Substitution
import IsoLiteral.Proofs.Resolution.Surroundings
import IsoLiteral.Proofs.Resolution.Variables
import IsoLiteral.Proofs.Run.Accounted
import IsoLiteral.Proofs.Run.Extended
import IsoLiteral.Proofs.Run.Layout
import IsoLiteral.Proofs.Run.References
import IsoLiteral.Proofs.Run.Reordered
import IsoLiteral.Proofs.Schema.Coherent
import IsoLiteral.Proofs.Schema.Completion
import IsoLiteral.Proofs.Schema.Construction
import IsoLiteral.Proofs.Schema.Extension
import IsoLiteral.Proofs.Schema.Layout
import IsoLiteral.Proofs.Schema.Registry
import IsoLiteral.Proofs.Schema.Renaming
import IsoLiteral.Proofs.Schema.Reordered
import IsoLiteral.Proofs.Schema.Stages
import IsoLiteral.Proofs.StoreKey.Decoding
import IsoLiteral.Proofs.StoreKey.Fields
import IsoLiteral.Proofs.StoreKey.Identifier
import IsoLiteral.Proofs.StoreKey.Legible
import IsoLiteral.Proofs.StoreKey.Reading
import IsoLiteral.Proofs.StoreKey.Words
import IsoLiteral.Proofs.Syntax.Acceptance
import IsoLiteral.Proofs.Syntax.Alike
import IsoLiteral.Proofs.Syntax.Bare
import IsoLiteral.Proofs.Syntax.Budget
import IsoLiteral.Proofs.Syntax.Charged
import IsoLiteral.Proofs.Syntax.Course
import IsoLiteral.Proofs.Syntax.Faultless
import IsoLiteral.Proofs.Syntax.Grammar
import IsoLiteral.Proofs.Syntax.Layout
import IsoLiteral.Proofs.Syntax.Limits
import IsoLiteral.Proofs.Syntax.Lossless
import IsoLiteral.Proofs.Syntax.Nesting
import IsoLiteral.Proofs.Syntax.Partition
import IsoLiteral.Proofs.Syntax.Places
import IsoLiteral.Proofs.Syntax.Productions
import IsoLiteral.Proofs.Syntax.Progress
import IsoLiteral.Proofs.Syntax.Ranges
import IsoLiteral.Proofs.Syntax.Reading
import IsoLiteral.Proofs.Syntax.Realizes
import IsoLiteral.Proofs.Syntax.Rule
import IsoLiteral.Proofs.Syntax.Runs
import IsoLiteral.Proofs.Syntax.Scanning
import IsoLiteral.Proofs.Syntax.Solid
import IsoLiteral.Proofs.Syntax.Step
import IsoLiteral.Proofs.Syntax.Trimmed
import IsoLiteral.Proofs.Syntax.View
import IsoLiteral.Proofs.Text.Dedent
import IsoLiteral.Proofs.TypeExpr.RoundTrip
import IsoLiteral.Proofs.TypeExpr.Written
import IsoLiteral.Proofs.Value.Order
import IsoLiteral.Proofs.Value.Pieces
import IsoLiteral.Proofs.Value.Printed
import IsoLiteral.Proofs.Value.Shape
import IsoLiteral.Proofs.Value.Substitution
import IsoLiteral.Resolution.Basic
import IsoLiteral.Resolution.Coercion
import IsoLiteral.Resolution.Directives
import IsoLiteral.Resolution.OfDeclarations
import IsoLiteral.Resolution.RefetchSite
import IsoLiteral.Resolution.Selections
import IsoLiteral.Run.Analysis
import IsoLiteral.Run.Config
import IsoLiteral.Run.Literals
import IsoLiteral.Run.Output
import IsoLiteral.Schema.Basic
import IsoLiteral.Schema.Builder
import IsoLiteral.Schema.Definition
import IsoLiteral.Schema.Document
import IsoLiteral.Schema.Fields
import IsoLiteral.Schema.OfDocument
import IsoLiteral.Schema.TypeTable
import IsoLiteral.Syntax.Grammar
import IsoLiteral.Syntax.Kind
import IsoLiteral.Syntax.Parser
import IsoLiteral.Syntax.Token
import IsoLiteral.Syntax.Token.Lexer
import IsoLiteral.Syntax.TokenSet
import IsoLiteral.Syntax.Tree
import IsoLiteral.Text.Combining
import IsoLiteral.Text.Invisible
import IsoLiteral.Text.Join
import IsoLiteral.Text.Quoted
import IsoLiteral.Text.Range
import IsoLiteral.Text.StringLiteral
import IsoLiteral.Text.Unassigned
import IsoLiteral.Text.Whitespace
