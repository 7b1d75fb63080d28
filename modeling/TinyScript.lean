import TinyScript.Console.Brackets
import TinyScript.Console.Command
import TinyScript.Console.Dialogue
import TinyScript.Console.Editor
import TinyScript.Diagnostic
import TinyScript.Fault
import TinyScript.Grammar.Parse
import TinyScript.Grammar.Program
import TinyScript.Grammar.Rules
import TinyScript.Library.Action
import TinyScript.Library.Install
import TinyScript.Library.Methods
import TinyScript.Library.Natives
import TinyScript.Machine
import TinyScript.Machine.Run
import TinyScript.Main
import TinyScript.Number.Exact
import TinyScript.Number.Read
import TinyScript.Number.Shortest
import TinyScript.Number.Text
import TinyScript.Operation
import TinyScript.Output
import TinyScript.Position
import TinyScript.Proofs.Console.Brackets
import TinyScript.Proofs.Console.Conversation
import TinyScript.Proofs.Console.Dialogue
import TinyScript.Proofs.Console.Division
import TinyScript.Proofs.Grammar.Agreement
import TinyScript.Proofs.Grammar.Brackets
import TinyScript.Proofs.Grammar.Completeness
import TinyScript.Proofs.Grammar.Derivation
import TinyScript.Proofs.Grammar.Faults
import TinyScript.Proofs.Grammar.Image
import TinyScript.Proofs.Grammar.Joining
import TinyScript.Proofs.Grammar.Legible
import TinyScript.Proofs.Grammar.Levels
import TinyScript.Proofs.Grammar.Literals
import TinyScript.Proofs.Grammar.Locality
import TinyScript.Proofs.Grammar.Newlines
import TinyScript.Proofs.Grammar.Order
import TinyScript.Proofs.Grammar.Parentheses
import TinyScript.Proofs.Grammar.Placement
import TinyScript.Proofs.Grammar.Positions
import TinyScript.Proofs.Grammar.Printer
import TinyScript.Proofs.Grammar.Printing
import TinyScript.Proofs.Grammar.Productions
import TinyScript.Proofs.Grammar.Snippets
import TinyScript.Proofs.Grammar.Soundness
import TinyScript.Proofs.Grammar.Spacing
import TinyScript.Proofs.Grammar.Steps
import TinyScript.Proofs.Grammar.Surface
import TinyScript.Proofs.Grammar.Totality
import TinyScript.Proofs.Grammar.Writing
import TinyScript.Proofs.Machine.Closed
import TinyScript.Proofs.Machine.Enlarging
import TinyScript.Proofs.Machine.Inset
import TinyScript.Proofs.Machine.Interpolation
import TinyScript.Proofs.Machine.Keeping
import TinyScript.Proofs.Machine.Layout
import TinyScript.Proofs.Machine.Lists
import TinyScript.Proofs.Machine.Literals
import TinyScript.Proofs.Machine.Locations
import TinyScript.Proofs.Machine.Loops
import TinyScript.Proofs.Machine.Maps
import TinyScript.Proofs.Machine.Moments
import TinyScript.Proofs.Machine.Natives
import TinyScript.Proofs.Machine.Parameters
import TinyScript.Proofs.Machine.Passive
import TinyScript.Proofs.Machine.Positions
import TinyScript.Proofs.Machine.Preface
import TinyScript.Proofs.Machine.Pruning
import TinyScript.Proofs.Machine.Recoded
import TinyScript.Proofs.Machine.Recoding
import TinyScript.Proofs.Machine.Relabel
import TinyScript.Proofs.Machine.Repeating
import TinyScript.Proofs.Machine.Returns
import TinyScript.Proofs.Machine.Scopes
import TinyScript.Proofs.Machine.Seclusion
import TinyScript.Proofs.Machine.Sequence
import TinyScript.Proofs.Machine.Spare
import TinyScript.Proofs.Machine.Stack
import TinyScript.Proofs.Machine.Values
import TinyScript.Proofs.Machine.Writes
import TinyScript.Proofs.Number.Denoting
import TinyScript.Proofs.Number.Indices
import TinyScript.Proofs.Number.Integers
import TinyScript.Proofs.Number.Intervals
import TinyScript.Proofs.Number.Order
import TinyScript.Proofs.Number.Shortest
import TinyScript.Proofs.Number.Unpacked
import TinyScript.Proofs.Session.Constants
import TinyScript.Proofs.Session.DeadCode
import TinyScript.Proofs.Session.Faults
import TinyScript.Proofs.Session.History
import TinyScript.Proofs.Session.Hygiene
import TinyScript.Proofs.Session.Immediate
import TinyScript.Proofs.Session.Independence
import TinyScript.Proofs.Session.Joining
import TinyScript.Proofs.Session.Library
import TinyScript.Proofs.Session.Nesting
import TinyScript.Proofs.Session.Provenance
import TinyScript.Proofs.Session.Reached
import TinyScript.Proofs.Session.Readback
import TinyScript.Proofs.Store.Alike
import TinyScript.Proofs.Store.Assignment
import TinyScript.Proofs.Store.Bindings
import TinyScript.Proofs.Store.Data
import TinyScript.Proofs.Store.Depth
import TinyScript.Proofs.Store.Disguise
import TinyScript.Proofs.Store.Enlarging
import TinyScript.Proofs.Store.Environments
import TinyScript.Proofs.Store.Growth
import TinyScript.Proofs.Store.Heap
import TinyScript.Proofs.Store.Inlay
import TinyScript.Proofs.Store.Items
import TinyScript.Proofs.Store.Keeping
import TinyScript.Proofs.Store.Keys
import TinyScript.Proofs.Store.Membership
import TinyScript.Proofs.Store.Operations
import TinyScript.Proofs.Store.Preface
import TinyScript.Proofs.Store.Reachable
import TinyScript.Proofs.Store.Recoding
import TinyScript.Proofs.Store.Spare
import TinyScript.Proofs.Store.Values
import TinyScript.Proofs.Syntax.Everywhere
import TinyScript.Proofs.Syntax.Induction
import TinyScript.Proofs.Syntax.Nesting
import TinyScript.Proofs.Syntax.Parts
import TinyScript.Proofs.Syntax.Quiet
import TinyScript.Proofs.Syntax.Recoding
import TinyScript.Proofs.Syntax.Relabel
import TinyScript.Proofs.Text.Filling
import TinyScript.Proofs.Text.Lines
import TinyScript.Proofs.Text.Separators
import TinyScript.Proofs.Text.Slicing
import TinyScript.Proofs.Text.Splitting
import TinyScript.Proofs.Token.Cutting
import TinyScript.Proofs.Token.Faults
import TinyScript.Proofs.Token.Joining
import TinyScript.Proofs.Token.Lines
import TinyScript.Proofs.Token.Nesting
import TinyScript.Proofs.Token.Places
import TinyScript.Proofs.Token.Refusals
import TinyScript.Proofs.Token.Rendering
import TinyScript.Proofs.Token.Scanning
import TinyScript.Proofs.Token.Spelling
import TinyScript.Proofs.Token.Tiling
import TinyScript.Session
import TinyScript.Store
import TinyScript.Syntax
import TinyScript.Table
import TinyScript.Text.Alphabetic
import TinyScript.Text.Blank
import TinyScript.Text.CaseMap
import TinyScript.Text.CodeRange
import TinyScript.Text.Lines
import TinyScript.Text.LowerCase
import TinyScript.Text.Numeric
import TinyScript.Text.Placeholder
import TinyScript.Text.Split
import TinyScript.Text.UpperCase
import TinyScript.Text.Word
import TinyScript.Token
import TinyScript.Token.Scanner
import TinyScript.Value
import TinyScript.Value.Text
