/-
# Tools on the command line

| tool | operand | switches |
| --- | --- | --- |
| assembler | source | `--output`, `-o`, `--listing` |
| disassembler | image | |
| emulator | image | `--rate`, `--trace` |
| interpreter | source | `--rate`, `--trace` |

Here the arguments of a tool are read, and its source, which is a file or, if it is named `-`, the standard
input. What the tool then does is its plan, and a plan is carried out in a closed directory.
-/

import DecimalMachine.Command.Arguments
import DecimalMachine.Command.Directory
import DecimalMachine.Command.Plan
import DecimalMachine.Decimal.Reader
import DecimalMachine.Text.Encoding

namespace DecimalMachine

namespace Inputs

/-- The name that stands for the standard input. -/
def stdinName : String := "-"

/-- The text of a source. -/
def text? (i : Inputs) (name : String) : Option String :=
  (if name = stdinName then some i.stdin else i.file? name).bind Text.decode?

/-- The standard input once a source was read. What the source took of it is gone. -/
def stdinAfter (i : Inputs) (name : String) : List UInt8 := if name = stdinName then [] else i.stdin

end Inputs

/-- The programs that are started from a command line. -/
inductive Tool where
  | assembler | disassembler | emulator | interpreter
  deriving DecidableEq, Repr

namespace Tool

def outputSwitch : Switch := ⟨"output", some 'o', true⟩

def listingSwitch : Switch := ⟨"listing", none, false⟩

def rateSwitch : Switch := ⟨"rate", none, true⟩

def traceSwitch : Switch := ⟨"trace", none, false⟩

/-- The switches that a tool knows. -/
def switches : Tool → List Switch
  | assembler => [outputSwitch, listingSwitch]
  | disassembler => []
  | emulator | interpreter => [rateSwitch, traceSwitch]

/-- Whether the operand of a tool is a source, which the standard input can stand for. -/
def readsSource : Tool → Bool
  | assembler | interpreter => true
  | disassembler | emulator => false

/-- Cycles per second of the emulator if nothing else is asked for. -/
def emulatorRate : Float := 1000.0

/-- The rate that the arguments ask for; none if it is no decimal. -/
def rate? (a : Arguments) (default : Float) : Option Float :=
  match a.value? rateSwitch.name with
  | none => some default
  | some text => Decimal.read? text.toList

/-- What a tool does with well-formed arguments; none if they are not. -/
def plan? (tool : Tool) (i : Inputs) (arguments : List String) : Option Plan := do
  let a ← Arguments.read? tool.switches arguments
  let [operand] := a.operands | none
  let trace := a.has traceSwitch.name
  match tool with
  | assembler =>
    return planAssembler (i.text? operand) (a.value? outputSwitch.name) (a.has listingSwitch.name)
  | disassembler => return planDisassembler i operand
  | emulator => return planEmulator i operand (← rate? a emulatorRate) trace
  | interpreter =>
    let rate ← rate? a Rate.standard
    return planInterpreter (i.text? operand) (i.stdinAfter operand) rate trace

/-- Runs a tool in a directory. -/
def run? (tool : Tool) (limit : Nat) (d : Directory) (stdin : List UInt8) (arguments : List String) :
    Option (Shown × Directory) :=
  (tool.plan? ⟨d.file?, stdin⟩ arguments).bind (Plan.carryOut Directory.store limit d)

end Tool
end DecimalMachine
