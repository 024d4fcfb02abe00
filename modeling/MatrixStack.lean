import MatrixStack.Debugger.Basic
import MatrixStack.Debugger.CommandLine
import MatrixStack.Debugger.Panel
import MatrixStack.Direction
import MatrixStack.Files.Path
import MatrixStack.Files.Tree
import MatrixStack.Instruction
import MatrixStack.Interpreter.Arguments
import MatrixStack.Interpreter.CommandLine
import MatrixStack.Interpreter.Run
import MatrixStack.Machine.Basic
import MatrixStack.Machine.Effect
import MatrixStack.Machine.Run
import MatrixStack.Main
import MatrixStack.Number.Basic
import MatrixStack.Number.Bits
import MatrixStack.Number.Kind
import MatrixStack.Number.Literal
import MatrixStack.Number.Operand
import MatrixStack.Options.Grammar
import MatrixStack.Plane.Basic
import MatrixStack.Plane.Extent
import MatrixStack.Plane.Fixed
import MatrixStack.Plane.Rows
import MatrixStack.Program.Converters
import MatrixStack.Program.Error
import MatrixStack.Program.Fixed
import MatrixStack.Program.Growable
import MatrixStack.Program.Line
import MatrixStack.Program.Reading
import MatrixStack.Program.Tokens
import MatrixStack.Session
import MatrixStack.Stack.Basic
import MatrixStack.Stack.Ring
import MatrixStack.Terminal.Basic
import MatrixStack.Terminal.Stream
import MatrixStack.Text.Blank
import MatrixStack.Text.Decimal
import MatrixStack.Text.Line
import MatrixStack.Text.Numeral
import MatrixStack.Text.Printable
import MatrixStack.Text.Quoted
import MatrixStack.Text.Range
import MatrixStack.Text.Utf8
import MatrixStack.Proofs.Number.Wrapping
import MatrixStack.Proofs.Stack.Likeness
import MatrixStack.Proofs.Stack.Map
import MatrixStack.Proofs.Plane.Full
import MatrixStack.Proofs.Plane.Generated
import MatrixStack.Proofs.Machine.Calls
import MatrixStack.Proofs.Machine.Cursor
import MatrixStack.Proofs.Machine.Effect
import MatrixStack.Proofs.Machine.Margin
import MatrixStack.Proofs.Machine.Padding
import MatrixStack.Proofs.Machine.Planes
import MatrixStack.Proofs.Machine.Runs
import MatrixStack.Proofs.Machine.Step
import MatrixStack.Proofs.Machine.WellFormed
import MatrixStack.Proofs.Machine.Wrapped
import MatrixStack.Proofs.Program.Capacity
import MatrixStack.Proofs.Program.Contents
import MatrixStack.Proofs.Program.Declarations
import MatrixStack.Proofs.Program.Enlarged
import MatrixStack.Proofs.Program.Faultless
import MatrixStack.Proofs.Program.IdealCursor
import MatrixStack.Proofs.Program.Lines
import MatrixStack.Proofs.Program.Loaded
import MatrixStack.Proofs.Program.Offences
import MatrixStack.Proofs.Program.Rejections
import MatrixStack.Proofs.Program.Retyped
import MatrixStack.Proofs.Program.Rows
import MatrixStack.Proofs.Program.Sites
import MatrixStack.Proofs.Program.SizeErrors
import MatrixStack.Proofs.Program.SourceLines
import MatrixStack.Proofs.Text.Lines
import MatrixStack.Proofs.Program.Readings
import MatrixStack.Proofs.Program.CommonLanguage
import MatrixStack.Proofs.Program.Acceptance
import MatrixStack.Proofs.Program.Writing
import MatrixStack.Proofs.Machine.Requests
import MatrixStack.Proofs.Machine.History
import MatrixStack.Proofs.Program.Counters
import MatrixStack.Proofs.Program.Resumption
import MatrixStack.Proofs.Interpreter.Dialogue
import MatrixStack.Proofs.Interpreter.ExitStatus
import MatrixStack.Proofs.Options.Operands
import MatrixStack.Proofs.Interpreter.Ends
import MatrixStack.Proofs.Interpreter.Files
import MatrixStack.Proofs.Machine.Unanswered
import MatrixStack.Proofs.Interpreter.Piped
import MatrixStack.Proofs.Session.Commands
import MatrixStack.Proofs.Session.Records
import MatrixStack.Proofs.Machine.Piecewise
import MatrixStack.Proofs.Session.Ticks
import MatrixStack.Proofs.Debugger.Batches
import MatrixStack.Proofs.Debugger.Actions
import MatrixStack.Proofs.Machine.Trail
import MatrixStack.Proofs.Program.Halting
import MatrixStack.Proofs.Number.TwosComplement
import MatrixStack.Proofs.Stack.Bounded
import MatrixStack.Proofs.Text.Numerals
import MatrixStack.Proofs.Program.Literals
import MatrixStack.Proofs.Machine.Faults
import MatrixStack.Proofs.Machine.Ledger
import MatrixStack.Proofs.Plane.Stores
import MatrixStack.Proofs.Program.Blocks
import MatrixStack.Proofs.Program.Grammar
import MatrixStack.Proofs.Number.Keys
import MatrixStack.Proofs.Program.Addressing
import MatrixStack.Proofs.Debugger.Launches
import MatrixStack.Proofs.Debugger.Display
