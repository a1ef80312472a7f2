import DecimalMachine.Audience
import DecimalMachine.Assembly.Basic
import DecimalMachine.Assembly.Error
import DecimalMachine.Assembly.Placement
import DecimalMachine.Assembly.Statement
import DecimalMachine.Bytes
import DecimalMachine.Command.Arguments
import DecimalMachine.Command.Directory
import DecimalMachine.Command.Inputs
import DecimalMachine.Command.Job
import DecimalMachine.Command.Path
import DecimalMachine.Command.Plan
import DecimalMachine.Command.Tool
import DecimalMachine.Console.Input
import DecimalMachine.Console.Screen
import DecimalMachine.Control.Controller
import DecimalMachine.Control.Listener
import DecimalMachine.Control.Run
import DecimalMachine.Decimal.Reader
import DecimalMachine.Decimal.Shortest
import DecimalMachine.Image
import DecimalMachine.Instruction
import DecimalMachine.Listing
import DecimalMachine.Machine.Basic
import DecimalMachine.Machine.Event
import DecimalMachine.Machine.Input
import DecimalMachine.Machine.Journal
import DecimalMachine.Machine.Loading
import DecimalMachine.Machine.Run
import DecimalMachine.Machine.State
import DecimalMachine.Machine.Step
import DecimalMachine.Machine.Stop
import DecimalMachine.Main
import DecimalMachine.Memory
import DecimalMachine.Observer
import DecimalMachine.Opcode
import DecimalMachine.Program
import DecimalMachine.Rate
import DecimalMachine.Record
import DecimalMachine.Session.Basic
import DecimalMachine.Session.Feed
import DecimalMachine.Session.Rig
import DecimalMachine.Session.Source
import DecimalMachine.Session.Watch
import DecimalMachine.Text.Blank
import DecimalMachine.Text.Encoding
import DecimalMachine.Text.Line
import DecimalMachine.Text.Numeral
import DecimalMachine.Violation
import DecimalMachine.Word
import DecimalMachine.Proofs.Machine.Effect
import DecimalMachine.Proofs.Machine.Invariant
import DecimalMachine.Proofs.Machine.Steps
import DecimalMachine.Proofs.Machine.Loaded
import DecimalMachine.Proofs.Machine.Locality
import DecimalMachine.Proofs.Machine.History
import DecimalMachine.Proofs.Accumulator.Basic
import DecimalMachine.Proofs.Accumulator.Refinement
import DecimalMachine.Proofs.Machine.Fetches
import DecimalMachine.Proofs.Control.Recording
import DecimalMachine.Proofs.Control.Transparency
import DecimalMachine.Proofs.Control.Calls
import DecimalMachine.Proofs.Assembly.Entries
import DecimalMachine.Proofs.Image.RoundTrip
import DecimalMachine.Proofs.Image.Canonical
import DecimalMachine.Proofs.Assembly.Erasure
import DecimalMachine.Proofs.Control.Requests
import DecimalMachine.Proofs.Control.Telling
import DecimalMachine.Proofs.Control.Underway
import DecimalMachine.Proofs.Control.Ending
import DecimalMachine.Proofs.Control.History
import DecimalMachine.Proofs.Control.Pausing
import DecimalMachine.Proofs.Listing.Rows
import DecimalMachine.Proofs.Assembly.WellFormed
import DecimalMachine.Proofs.Machine.Replay
import DecimalMachine.Proofs.Text.Layout
import DecimalMachine.Proofs.Text.Numerals
import DecimalMachine.Proofs.Assembly.Grammar
import DecimalMachine.Proofs.Assembly.Accounting
import DecimalMachine.Proofs.Text.Words
import DecimalMachine.Proofs.Listing.Printed
import DecimalMachine.Proofs.Listing.Reassembly
import DecimalMachine.Proofs.Image.Truncation
import DecimalMachine.Proofs.Machine.Restart
import DecimalMachine.Proofs.Machine.Block
import DecimalMachine.Proofs.Control.Block
import DecimalMachine.Proofs.Machine.Faults
import DecimalMachine.Proofs.Machine.Branches
import DecimalMachine.Proofs.Listing.Elision
import DecimalMachine.Proofs.Control.Reporting
import DecimalMachine.Proofs.Machine.Alike
import DecimalMachine.Proofs.Control.Repetition
import DecimalMachine.Proofs.Control.Rates
import DecimalMachine.Proofs.Command.Toolchains
import DecimalMachine.Proofs.Machine.Branchless
import DecimalMachine.Proofs.Assembly.Addresses
import DecimalMachine.Proofs.Text.Tokens
import DecimalMachine.Proofs.Text.Lines
import DecimalMachine.Proofs.Assembly.Joining
import DecimalMachine.Proofs.Assembly.Layout
import DecimalMachine.Proofs.Instruction.Bits
import DecimalMachine.Proofs.Listing.Blocks
import DecimalMachine.Proofs.Listing.Views
import DecimalMachine.Proofs.Assembly.Literals
import DecimalMachine.Proofs.Machine.Silence
import DecimalMachine.Proofs.Machine.Bus
import DecimalMachine.Proofs.Console.Lines
import DecimalMachine.Proofs.Console.Requests
import DecimalMachine.Proofs.Session.Audience
import DecimalMachine.Proofs.Session.Broadcast
import DecimalMachine.Proofs.Session.Observers
import DecimalMachine.Proofs.Session.Commands
