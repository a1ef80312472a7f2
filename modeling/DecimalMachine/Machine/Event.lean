/-
# Events

Everything that an observer needs to follow a machine. Within a cycle events come in the order in
which the hardware would act: the fetch, the source line, then the effects of the instruction.

An event has two written forms: a short one (`PC=1`, `W 41=5`) and a full one that names every
part (`MemoryWritten` with its address and its value).
-/

import DecimalMachine.Machine.State

namespace DecimalMachine

/-- What a controlled machine is doing. -/
inductive RunState where
  | ready | running | halted | errored
  deriving DecidableEq, Repr

namespace RunState

/-- Whether the machine has to be loaded or reset before it can go on. -/
def isTerminal : RunState → Bool
  | halted | errored => true
  | ready | running => false

/-- The name of a run state in messages. -/
def name : RunState → String
  | ready => "Ready"
  | running => "Running"
  | halted => "Halted"
  | errored => "Errored"

end RunState

/-- How serious a notice is. -/
inductive Severity where
  | info | warning | error
  deriving DecidableEq, Repr

/-- The name of a severity in messages. -/
def Severity.name : Severity → String
  | info => "Info"
  | warning => "Warning"
  | error => "Error"

/-- One thing that happens in a machine or its controller. -/
inductive Event where
  | registerChanged (register : Register) (value : Int)
  | memoryWritten (address : Nat) (value : Int)
  | memoryRead (address : Nat)
  | flagsChanged (flags : Flags)
  /-- A cycle is complete; it was the given one since the machine was loaded. -/
  | cycleAdvanced (cycles : Nat)
  | runStateChanged (state : RunState)
  /-- The fetched word came from this source line. -/
  | lineExecuted (line : Nat)
  | output (word : Int)
  | notice (severity : Severity) (message : String)
  deriving DecidableEq, Repr

namespace Event

/-- A truth value as a digit. -/
def bit (b : Bool) : String := if b then "1" else "0"

/-- The short form of an event. -/
def text : Event → String
  | registerChanged register value => register.name ++ "=" ++ toString value
  | memoryWritten address value => "W " ++ toString address ++ "=" ++ toString value
  | memoryRead address => "R " ++ toString address
  | flagsChanged flags => "F " ++ bit flags.zero ++ bit flags.negative
  | cycleAdvanced cycles => "C " ++ toString cycles
  | runStateChanged state => "S " ++ state.name
  | lineExecuted line => "L " ++ toString line
  | output word => "O " ++ toString word
  | notice severity message => "N " ++ severity.name ++ ": " ++ message

/-- A named part list between braces. -/
def braced (name : String) (parts : List (String × String)) : String :=
  name ++ " \x7b " ++ ", ".intercalate (parts.map fun (part, value) => part ++ ": " ++ value)
    ++ " \x7d"

/-- The full form of an event. Messages hold no character that would need escaping. -/
def fullText : Event → String
  | registerChanged register value =>
    braced "RegisterChanged" [("reg", register.name), ("value", toString value)]
  | memoryWritten address value =>
    braced "MemoryWritten" [("addr", toString address), ("value", toString value)]
  | memoryRead address => braced "MemoryRead" [("addr", toString address)]
  | flagsChanged flags =>
    braced "FlagsChanged" [("zero", toString flags.zero), ("negative", toString flags.negative)]
  | cycleAdvanced cycles => "CycleAdvanced(" ++ toString cycles ++ ")"
  | runStateChanged state => "RunStateChanged(" ++ state.name ++ ")"
  | lineExecuted line => "LineExecuted(" ++ toString line ++ ")"
  | output word => "Output(" ++ toString word ++ ")"
  | notice severity message =>
    braced "Notice" [("severity", severity.name), ("message", "\"" ++ message ++ "\"")]

/-- The word that an output event puts out. -/
def output? : Event → Option Int
  | output word => some word
  | _ => none

end Event
end DecimalMachine
