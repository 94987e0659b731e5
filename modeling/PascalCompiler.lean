import PascalCompiler.Command.Disk
import PascalCompiler.Command.Flags
import PascalCompiler.Command.Size
import PascalCompiler.Command.Task
import PascalCompiler.Compile
import PascalCompiler.Document.Decode
import PascalCompiler.Document.Defect
import PascalCompiler.Document.Location
import PascalCompiler.Document.Node
import PascalCompiler.Document.Path
import PascalCompiler.Document.Reading
import PascalCompiler.Failure
import PascalCompiler.Generation.Context
import PascalCompiler.Generation.Decl
import PascalCompiler.Generation.Error
import PascalCompiler.Generation.Expr
import PascalCompiler.Generation.File
import PascalCompiler.Generation.Stmt
import PascalCompiler.Generation.Visiting
import PascalCompiler.Json.Basic
import PascalCompiler.Json.Parser
import PascalCompiler.Json.Token
import PascalCompiler.Layout.Line
import PascalCompiler.Layout.Piece
import PascalCompiler.Main
import PascalCompiler.Outline.Basic
import PascalCompiler.Outline.Node
import PascalCompiler.Proofs.Command.AllOrNothing
import PascalCompiler.Proofs.Document.Elements
import PascalCompiler.Proofs.Document.Fields
import PascalCompiler.Proofs.Document.Integers
import PascalCompiler.Proofs.Document.Missing
import PascalCompiler.Proofs.Document.Places
import PascalCompiler.Proofs.Document.Reached
import PascalCompiler.Proofs.Document.Recovery
import PascalCompiler.Proofs.Document.RoundTrip
import PascalCompiler.Proofs.Document.Soundness
import PascalCompiler.Proofs.Document.Spelling
import PascalCompiler.Proofs.Document.Tagging
import PascalCompiler.Proofs.Ecma.Conditional
import PascalCompiler.Proofs.Ecma.Grammar
import PascalCompiler.Proofs.Ecma.Lexis
import PascalCompiler.Proofs.Ecma.Parse
import PascalCompiler.Proofs.Ecma.Tokens
import PascalCompiler.Proofs.Ecma.Unambiguity
import PascalCompiler.Proofs.Ecma.Value
import PascalCompiler.Proofs.Generation.Conditional
import PascalCompiler.Proofs.Generation.Faults
import PascalCompiler.Proofs.Generation.Grouping
import PascalCompiler.Proofs.Generation.Indifference
import PascalCompiler.Proofs.Generation.Lockstep
import PascalCompiler.Proofs.Generation.Naming
import PascalCompiler.Proofs.Generation.Outcome
import PascalCompiler.Proofs.Generation.Parameters
import PascalCompiler.Proofs.Generation.Stack
import PascalCompiler.Proofs.Generation.Trail
import PascalCompiler.Proofs.Generation.Validity
import PascalCompiler.Proofs.Json.Grammar
import PascalCompiler.Proofs.Json.Numbers
import PascalCompiler.Proofs.Json.Opening
import PascalCompiler.Proofs.Json.Reading
import PascalCompiler.Proofs.Json.Scanning
import PascalCompiler.Proofs.Layout.Acceptance
import PascalCompiler.Proofs.Layout.Assembly
import PascalCompiler.Proofs.Layout.Canonical
import PascalCompiler.Proofs.Layout.Compiled
import PascalCompiler.Proofs.Layout.Faults
import PascalCompiler.Proofs.Layout.Lines
import PascalCompiler.Proofs.Layout.Rendering
import PascalCompiler.Proofs.Layout.Spacing
import PascalCompiler.Proofs.Layout.Texts
import PascalCompiler.Proofs.Lexical.Isolation
import PascalCompiler.Proofs.Lexical.Levels
import PascalCompiler.Proofs.Lexical.Refinement
import PascalCompiler.Proofs.Lexical.Statements
import PascalCompiler.Proofs.Lexical.Translatable
import PascalCompiler.Proofs.Lexical.Translator
import PascalCompiler.Proofs.Outline.Faithful
import PascalCompiler.Proofs.Outline.Legibility
import PascalCompiler.Proofs.Outline.Members
import PascalCompiler.Proofs.Outline.Rendering
import PascalCompiler.Proofs.Resolution.ByLevel
import PascalCompiler.Proofs.Resolution.Defects
import PascalCompiler.Proofs.Resolution.Detached
import PascalCompiler.Proofs.Resolution.Skeleton
import PascalCompiler.Proofs.Resolution.Specification
import PascalCompiler.Proofs.Resolution.Traversal
import PascalCompiler.Proofs.Resolution.Unnamed
import PascalCompiler.Proofs.Scope.Layers
import PascalCompiler.Proofs.Script.Derivation
import PascalCompiler.Proofs.Script.Literals
import PascalCompiler.Proofs.Script.Names
import PascalCompiler.Proofs.Script.Scanning
import PascalCompiler.Proofs.Session.History
import PascalCompiler.Proofs.Text.Order
import PascalCompiler.Proofs.Text.Utf8
import PascalCompiler.Proofs.Tree.Everywhere
import PascalCompiler.Proofs.Tree.Gap
import PascalCompiler.Proofs.Tree.Normal
import PascalCompiler.Proofs.Tree.Operation
import PascalCompiler.Proofs.Tree.WellFormed
import PascalCompiler.Resolution.Basic
import PascalCompiler.Resolution.Defect
import PascalCompiler.Scope.Basic
import PascalCompiler.Scope.Forest
import PascalCompiler.Scope.NameKind
import PascalCompiler.Scope.NameTable
import PascalCompiler.Script.Basic
import PascalCompiler.Script.Literal
import PascalCompiler.Script.Name
import PascalCompiler.Script.Printer
import PascalCompiler.Session
import PascalCompiler.Text.Blank
import PascalCompiler.Text.Bytes
import PascalCompiler.Text.Folding
import PascalCompiler.Text.Lowercase
import PascalCompiler.Text.Numeral
import PascalCompiler.Text.Printable
import PascalCompiler.Text.Quoted
import PascalCompiler.Text.Utf8
import PascalCompiler.Tree.Decl
import PascalCompiler.Tree.Expr
import PascalCompiler.Tree.File
import PascalCompiler.Tree.Kind
import PascalCompiler.Tree.Node
import PascalCompiler.Tree.Position
import PascalCompiler.Tree.Stmt
