import Disassembly.Analysis.Repair
import Disassembly.Analysis.Sweep
import Disassembly.Analysis.Vectors
import Disassembly.Analysis.Visit
import Disassembly.Analysis.Walk
import Disassembly.CommandLine.Options
import Disassembly.CommandLine.Run
import Disassembly.CommandLine.Token
import Disassembly.Context
import Disassembly.Decode.Operand
import Disassembly.Decode.Render
import Disassembly.Decode.Step
import Disassembly.Image
import Disassembly.Instruction.Kind
import Disassembly.Instruction.Mode
import Disassembly.Instruction.Registry
import Disassembly.Instruction.Table
import Disassembly.Layout.Address
import Disassembly.Layout.Basic
import Disassembly.Layout.Mirror
import Disassembly.Main
import Disassembly.Project.Action
import Disassembly.Project.Analysis
import Disassembly.Project.Basic
import Disassembly.Project.Channel
import Disassembly.Project.Event
import Disassembly.Project.Listing
import Disassembly.Store.Basic
import Disassembly.Store.Cell
import Disassembly.Store.Edit
import Disassembly.Store.Survey
import Disassembly.Text.Blank
import Disassembly.Text.Cased
import Disassembly.Text.Decimal
import Disassembly.Text.Directive
import Disassembly.Text.Hex
import Disassembly.Text.Letter
import Disassembly.Text.Numeral
import Disassembly.Text.Quoted
import Disassembly.Text.Range
import Disassembly.Text.Visible
import Disassembly.Trace
import Disassembly.Proofs.Layout.RoundTrip
import Disassembly.Proofs.Store.Cells
import Disassembly.Proofs.Store.Reachable
import Disassembly.Proofs.Decode.Operand
import Disassembly.Proofs.Decode.Effect
import Disassembly.Proofs.Decode.Inheritance
import Disassembly.Proofs.Decode.Repeat
import Disassembly.Proofs.Analysis.Nesting
import Disassembly.Proofs.Analysis.Walk
import Disassembly.Proofs.Analysis.Threading
import Disassembly.Proofs.Analysis.Rescan
import Disassembly.Proofs.Analysis.Repair
import Disassembly.Proofs.Analysis.Returns
import Disassembly.Proofs.Analysis.Vectors
import Disassembly.Proofs.Analysis.Tiling
import Disassembly.Proofs.Analysis.Sweep
import Disassembly.Proofs.Decode.Render
import Disassembly.Proofs.Project.Listing
import Disassembly.Proofs.Analysis.Accounted
import Disassembly.Proofs.Analysis.Jumps
import Disassembly.Proofs.Analysis.Straight
import Disassembly.Proofs.Decode.Lossless
import Disassembly.Proofs.Project.Failure
import Disassembly.Proofs.Project.Labels
import Disassembly.Proofs.Store.Integrity
import Disassembly.Proofs.Decode.Step
import Disassembly.Proofs.Layout.Neighbours
import Disassembly.Proofs.Decode.Address
import Disassembly.Proofs.Layout.Mirror
import Disassembly.Proofs.Layout.Windows
import Disassembly.Proofs.Analysis.Halting
import Disassembly.Proofs.Trace
import Disassembly.Proofs.Decode.Naming
import Disassembly.Proofs.Analysis.Changes
import Disassembly.Proofs.Decode.Owner
import Disassembly.Proofs.Image.Header
import Disassembly.Proofs.Image.Load
import Disassembly.Proofs.Instruction.Registry
import Disassembly.Proofs.Project.Reporting
import Disassembly.Proofs.Project.Seeding
import Disassembly.Proofs.Project.Tracing
import Disassembly.Proofs.Text.Numeral
