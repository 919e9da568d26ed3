import Stepwise.Analysis
import Stepwise.CType
import Stepwise.CallGraph
import Stepwise.Capacity
import Stepwise.Category
import Stepwise.CommandLine.Listing
import Stepwise.CommandLine.Options
import Stepwise.CommandLine.Report
import Stepwise.CommandLine.Usage
import Stepwise.CommandLine.Workplace
import Stepwise.Decimal.Binary64
import Stepwise.Decimal.Notation
import Stepwise.Decimal.Reading
import Stepwise.Decimal.Shortest
import Stepwise.Document
import Stepwise.Eval.Evaluate
import Stepwise.Eval.Host
import Stepwise.Eval.Operation
import Stepwise.Fault
import Stepwise.Grammar.Declaration
import Stepwise.Grammar.Expression
import Stepwise.Grammar.Parse
import Stepwise.Grammar.Program
import Stepwise.Grammar.Statement
import Stepwise.Grammar.TypeName
import Stepwise.Layout
import Stepwise.Literal
import Stepwise.Machine.Basic
import Stepwise.Machine.Call
import Stepwise.Machine.Condition
import Stepwise.Machine.Cursor
import Stepwise.Machine.Export
import Stepwise.Machine.Flow
import Stepwise.Machine.Library
import Stepwise.Machine.Objects
import Stepwise.Machine.Request
import Stepwise.Machine.State
import Stepwise.Machine.Statement
import Stepwise.Machine.Step
import Stepwise.Macro
import Stepwise.Main
import Stepwise.Numeral.Reading
import Stepwise.Numeral.Writing
import Stepwise.Printf.Field
import Stepwise.Printf.Format
import Stepwise.Printf.Template
import Stepwise.Proofs.Allocation
import Stepwise.Proofs.Books
import Stepwise.Proofs.Calls
import Stepwise.Proofs.Cells
import Stepwise.Proofs.Chunks
import Stepwise.Proofs.Derivation
import Stepwise.Proofs.Effect
import Stepwise.Proofs.Faults
import Stepwise.Proofs.Formats
import Stepwise.Proofs.Execution
import Stepwise.Proofs.Frames
import Stepwise.Proofs.Gaps
import Stepwise.Proofs.Increments
import Stepwise.Proofs.Journal
import Stepwise.Proofs.Layouts
import Stepwise.Proofs.Likeness
import Stepwise.Proofs.Limits
import Stepwise.Proofs.Lines
import Stepwise.Proofs.Moves
import Stepwise.Proofs.Names
import Stepwise.Proofs.Nesting
import Stepwise.Proofs.Number
import Stepwise.Proofs.Operands
import Stepwise.Proofs.Parallel
import Stepwise.Proofs.Partition
import Stepwise.Proofs.Pending
import Stepwise.Proofs.Placement
import Stepwise.Proofs.Recognition
import Stepwise.Proofs.Record
import Stepwise.Proofs.Regions
import Stepwise.Proofs.Recursion
import Stepwise.Proofs.Replay
import Stepwise.Proofs.Reuse
import Stepwise.Proofs.Sequence
import Stepwise.Proofs.Shape
import Stepwise.Proofs.Showing
import Stepwise.Proofs.Sizes
import Stepwise.Proofs.State
import Stepwise.Proofs.Structs
import Stepwise.Proofs.Table
import Stepwise.Proofs.Tags
import Stepwise.Proofs.Termination
import Stepwise.Proofs.Tiling
import Stepwise.Proofs.Unsigned
import Stepwise.Proofs.Views
import Stepwise.Proofs.Words
import Stepwise.Script.Allocation
import Stepwise.Script.Remark
import Stepwise.Script.Outline
import Stepwise.Session
import Stepwise.Settings
import Stepwise.Sorting
import Stepwise.Syntax.Equality
import Stepwise.Syntax.Expr
import Stepwise.Syntax.Operator
import Stepwise.Syntax.Program
import Stepwise.Syntax.Tree
import Stepwise.Table
import Stepwise.Text.Class
import Stepwise.Text.Split
import Stepwise.Text.Lower
import Stepwise.Text.Quoted
import Stepwise.Text.Word
import Stepwise.Token.Basic
import Stepwise.Token.Directive
import Stepwise.Token.Scan
import Stepwise.Token.Segment
import Stepwise.Trace
import Stepwise.Value.Arithmetic
import Stepwise.Value.Basic
import Stepwise.Value.Coerce
import Stepwise.Value.Show
import Stepwise.Proofs.Rereading
import Stepwise.Proofs.Spelling
import Stepwise.Proofs.Brackets
import Stepwise.Proofs.Rendering
import Stepwise.Proofs.Store
import Stepwise.Proofs.Handles
import Stepwise.Proofs.Toplevel
import Stepwise.Proofs.Scopes
import Stepwise.Proofs.Unclosed
import Stepwise.Proofs.Blanking
import Stepwise.Proofs.Comments
import Stepwise.Proofs.Renaming
import Stepwise.Proofs.Histories
import Stepwise.Proofs.Spacing
import Stepwise.Proofs.Respacing
import Stepwise.Proofs.Bodies
import Stepwise.Proofs.Definitions
import Stepwise.Proofs.Leaves
import Stepwise.Proofs.Copies
import Stepwise.Proofs.StructUses
import Stepwise.Proofs.Offsets
import Stepwise.Proofs.Unrecorded
import Stepwise.Proofs.Settling
import Stepwise.Proofs.Sections
import Stepwise.Proofs.Compilation
import Stepwise.Proofs.Switches
import Stepwise.Proofs.Paths
import Stepwise.Proofs.Access
import Stepwise.Proofs.Alignment
import Stepwise.Proofs.CallFree
import Stepwise.Proofs.Score
import Stepwise.Proofs.Stopping
import Stepwise.Proofs.Lookahead
import Stepwise.Proofs.Agreement
import Stepwise.Proofs.Dispatch
import Stepwise.Proofs.Guards
import Stepwise.Proofs.Exports
import Stepwise.Proofs.Uses
import Stepwise.Proofs.Bits
import Stepwise.Proofs.Listable
import Stepwise.Proofs.Conversions
import Stepwise.Proofs.Pointers
import Stepwise.Proofs.Counts
import Stepwise.Proofs.Escapes
import Stepwise.Proofs.Constants
import Stepwise.Proofs.Grants
import Stepwise.Proofs.Declarators
import Stepwise.Proofs.Capture
import Stepwise.Proofs.Hygiene
