/-
# Machines

A machine is a state, the program that was loaded, the reason why it stopped (if it did) and an
input source. The loaded program always fits into memory, because loading is the only way to set
it and a program that does not fit is not loaded.
-/

import DecimalMachine.Machine.Input
import DecimalMachine.Machine.Loading
import DecimalMachine.Machine.Stop

namespace DecimalMachine

/-- A machine with a program, and the input source that its instructions read from. The program lies within
memory. -/
structure Machine (ι : Type) where
  state : State
  program : Program
  stop : Option Stop
  input : ι
  fits : program.extent ≤ memorySize
  deriving DecidableEq

namespace Machine

variable {ι : Type}

/-- A machine on which nothing was ever loaded. -/
def new (input : ι) : Machine ι where
  state := .zero
  program := .empty
  stop := none
  input := input
  fits := Nat.zero_le memorySize

/-- Whether a machine stopped, for whatever reason. -/
def isStopped (m : Machine ι) : Bool := m.stop.isSome

/-- Whether control has left the loaded program, so that the next step halts without a fetch. -/
def pastEnd (m : Machine ι) : Bool :=
  decide (m.state.pc < 0) || decide ((m.program.extent : Int) ≤ m.state.pc)

/-- The machine with another state. -/
def setState (m : Machine ι) (state : State) : Machine ι := { m with state := state }

/-- The machine with another input source. -/
def setInput (m : Machine ι) (input : ι) : Machine ι := { m with input := input }

/-- The machine with everything cleared but its input source. -/
def cleared (m : Machine ι) : Machine ι := new m.input

/-- The events that announce a cleared machine. -/
def clearedJournal : Journal :=
  Register.all.map (fun register => .event (.registerChanged register 0))
    ++ [.event (.flagsChanged .clear)]

/-- Clears the machine and drops the program. -/
def reset (m : Machine ι) : Turn (Machine ι) Unit := ⟨m.cleared, clearedJournal, ()⟩

/-- Clears the machine and writes a program into memory. A program with an entry that cannot be
written ends as a violation: memory holds the words before that entry, and nothing is loaded. -/
def load (m : Machine ι) (p : Program) : Turn (Machine ι) (Except Violation Unit) :=
  let memory := Memory.load p
  let cleared := m.cleared
  let state := { cleared.state with memory := memory.next }
  match h : p.violation? with
  | some violation =>
    ⟨cleared.setState state, clearedJournal ++ memory.journal, .error violation⟩
  | none =>
    { next :=
        { state := state
          program := p
          stop := none
          input := m.input
          fits := (Program.violation?_eq_none_iff.1 h).extent_le }
      journal :=
        clearedJournal ++ memory.journal
          ++ p.entries.map (fun e => .event (.memoryWritten e.address e.word))
          ++ [.record ⟨.debug, "Loaded " ++ toString p.size ++ " words, extent "
            ++ toString p.extent⟩]
      result := .ok () }

end Machine
end DecimalMachine
