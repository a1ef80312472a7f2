/-
# One step of a machine

A step fetches the word at `PC`, moves `PC` on, and carries out the instruction that the word stands
for. It ends in one of these ways.

| ending | meaning |
| --- | --- |
| `proceeded` | the machine goes on |
| `halted` | a `HALT` was executed, or control left the program |
| `faulted` | the instruction could not be carried out |
| `violated` | an accumulator that is no word was stored |

The accumulator can be no word only if the machine's state was changed from outside.

`Machine.cycle` is the fetch and the execution, `Progress.settle` draws the consequences of how they
ended, and `Machine.step` is both on a machine that is not stopped yet.
-/

import DecimalMachine.Machine.Basic

namespace DecimalMachine

/-- A machine in the middle of an operation, and what became visible so far. -/
structure Progress (ι : Type) where
  machine : Machine ι
  journal : Journal

/-- How the fetch and the execution of an instruction ended. -/
inductive Ending where
  | proceeded
  | halted (reason : HaltReason)
  | faulted (fault : Fault)
  | violated (violation : Violation)
  deriving DecidableEq, Repr

namespace Progress

variable {ι : Type}

/-- Tells the observers of an event. -/
def emit (p : Progress ι) (e : Event) : Progress ι :=
  { p with journal := p.journal ++ [.event e] }

/-- Leaves a log record. -/
def log (p : Progress ι) (level : Level) (message : String) : Progress ι :=
  { p with journal := p.journal ++ [.record ⟨level, message⟩] }

/-- Gives the observers a notice. -/
def notice (p : Progress ι) (severity : Severity) (message : String) : Progress ι :=
  p.emit (.notice severity message)

/-- The log record of a change to a register. -/
def registerRecord (register : Register) (value : Int) : Record :=
  ⟨.trace, "Reg: writing " ++ toString value ++ " to " ++ register.name⟩

/-- Sets a register, leaves a log record of it and tells the observers. -/
def setRegister (p : Progress ι) (register : Register) (value : Int) : Progress ι where
  machine := p.machine.setState (p.machine.state.setRegister register value)
  journal := p.journal ++
    [.record (registerRecord register value), .event (.registerChanged register value)]

/-- The accumulator and the flags, which follow it. -/
def setAc (p : Progress ι) (value : Int) : Progress ι :=
  let q := p.setRegister .ac value
  { machine := q.machine.setState (q.machine.state.setFlags (.ofAc value))
    journal := q.journal ++ [.event (.flagsChanged (.ofAc value))] }

/-- `MAR ← address; MBR ← M[MAR]`. The address is one of a cell. -/
def readCell (p : Progress ι) (address : Nat) : Progress ι :=
  ((p.setRegister .mar address).emit (.memoryRead address)).setRegister .mbr
    (p.machine.state.memory.get address)

/-- `MAR ← PC; MBR ← M[MAR]; IR ← MBR; PC ← PC + 1`, then the source line of the address. -/
def fetch (p : Progress ι) (address : Nat) : Progress ι :=
  let word := p.machine.state.memory.get address
  let q := ((p.readCell address).setRegister .ir word).setRegister .pc (address + 1)
  match p.machine.program.lineAt? address with
  | some line => q.emit (.lineExecuted line)
  | none => q

/-- Tells the observers and the log which instruction is about to be carried out. -/
def announce (p : Progress ι) (address : Nat) (i : Instruction) : Progress ι :=
  (p.log .debug ("PC: " ++ Text.addressText address ++ ": " ++ i.text)).notice .info
    (Text.addressText address ++ ": " ++ i.text)

/-- The accumulator takes the result of an instruction; it is left alone if the result is no word. -/
def accept (p : Progress ι) (op : Opcode) (address : Nat) (value : Int) : Progress ι × Ending :=
  if InWordRange value then (p.setAc value, .proceeded)
  else (p, .faulted (.overflow op address value))

/-- Adds or subtracts a cell. -/
def arithmetic (p : Progress ι) (op : Opcode) (combine : Int → Int → Int) (address operand : Nat) :
    Progress ι × Ending :=
  (p.readCell operand).accept op address
    (combine p.machine.state.ac (p.machine.state.memory.get operand))

/-- `M[address] ← value`. The address is one of a cell and the value a word. -/
def writeCell (p : Progress ι) (address : Nat) (value : Int) : Progress ι where
  machine := p.machine.setState (p.machine.state.setCell address value)
  journal := p.journal ++
    [.record (Memory.writeRecord address value), .event (.memoryWritten address value)]

/-- `MAR ← operand; MBR ← AC; M[MAR] ← MBR`. -/
def store (p : Progress ι) (operand : Nat) : Progress ι × Ending :=
  let value := p.machine.state.ac
  let q := (p.setRegister .mar operand).setRegister .mbr value
  match Memory.writeViolation? operand value with
  | some violation => (q, .violated violation)
  | none => (q.writeCell operand value, .proceeded)

/-- `PC ← operand` if the branch is taken. -/
def branch (p : Progress ι) (operand : Nat) (taken : Prop) [Decidable taken] : Progress ι :=
  if taken then p.setRegister .pc operand else p

/-- Makes a request to the input source. -/
def ask [InputSource ι] (p : Progress ι) : Progress ι where
  machine := p.machine.setInput (InputSource.request p.machine.input).source
  journal := p.journal ++ (InputSource.request p.machine.input).journal

/-- `AC ← input`. -/
def receive [InputSource ι] (p : Progress ι) (address : Nat) : Progress ι × Ending :=
  match (InputSource.request p.machine.input).value with
  | none => (p.ask, .faulted (.inputCancelled address))
  | some value => (p.ask.log .debug ("IN: read " ++ toString value)).accept .input address value

/-- Puts out the accumulator. -/
def send (p : Progress ι) : Progress ι :=
  (p.log .debug ("OUT: " ++ toString p.machine.state.ac)).emit (.output p.machine.state.ac)

/-- Carries out the instruction that was fetched from `address`. -/
def execute [InputSource ι] (p : Progress ι) (address : Nat) (i : Instruction) :
    Progress ι × Ending :=
  match i.opcode with
  | .halt => (p, .halted .halt)
  | .add => p.arithmetic .add (· + ·) address i.operand
  | .sub => p.arithmetic .sub (· - ·) address i.operand
  | .store => p.store i.operand
  | .nop => (p, .proceeded)
  | .load => ((p.readCell i.operand).setAc (p.machine.state.memory.get i.operand), .proceeded)
  | .branch => (p.branch i.operand True, .proceeded)
  | .brz => (p.branch i.operand (p.machine.state.ac = 0), .proceeded)
  | .brp => (p.branch i.operand (0 ≤ p.machine.state.ac), .proceeded)
  | .input => p.receive address
  | .output => (p.send, .proceeded)

/-- Stops the machine. -/
def setStop (p : Progress ι) (stop : Stop) : Progress ι :=
  { p with machine := { p.machine with stop := some stop } }

/-- The notice that control left the program. -/
def ranOffEndMessage (pc : Int) : String :=
  "ran off the end of the program at address " ++ Text.zeroPadded 2 pc

/-- Stops the machine at a halt. -/
def halt (p : Progress ι) (reason : HaltReason) : Progress ι :=
  let q :=
    match reason with
    | .halt => p.log .debug ("Halted at PC " ++ toString p.machine.state.pc)
    | .ranOffEnd =>
      (p.log .warn (ranOffEndMessage p.machine.state.pc)).notice .warning
        (ranOffEndMessage p.machine.state.pc)
  q.setStop (.halted reason)

/-- Stops the machine with a fault. -/
def fault (p : Progress ι) (fault : Fault) : Progress ι :=
  ((p.log .error fault.message).notice .error fault.message).setStop (.errored fault)

/-- Stops the machine if the ending says so. The result tells whether the machine goes on. -/
def settle (p : Progress ι) (ending : Ending) : Turn (Machine ι) (Except Violation Bool) :=
  match ending with
  | .proceeded => ⟨p.machine, p.journal, .ok true⟩
  | .halted reason => let q := p.halt reason; ⟨q.machine, q.journal, .ok false⟩
  | .faulted fault => let q := p.fault fault; ⟨q.machine, q.journal, .ok false⟩
  | .violated violation => ⟨p.machine, p.journal, .error violation⟩

end Progress

namespace Machine

variable {ι : Type}

/-- Fetches and carries out one instruction. Control that has left the program, before or after,
halts the machine. -/
def cycle [InputSource ι] (m : Machine ι) : Progress ι × Ending :=
  let start : Progress ι := ⟨m, []⟩
  if m.pastEnd then (start, .halted .ranOffEnd)
  else
    let address := m.state.pc.toNat
    let fetched := start.fetch address
    match Instruction.decode? fetched.machine.state.ir with
    | none => (fetched, .faulted (.unknownOpcode address fetched.machine.state.ir))
    | some i =>
      let done := (fetched.announce address i).execute address i
      if done.2 = .proceeded ∧ done.1.machine.pastEnd then (done.1, .halted .ranOffEnd) else done

/-- One step. The result tells whether the machine goes on; a stopped machine does nothing. -/
def step [InputSource ι] (m : Machine ι) : Turn (Machine ι) (Except Violation Bool) :=
  if m.isStopped then ⟨m, [], .ok false⟩
  else
    let done := m.cycle
    done.1.settle done.2

end Machine
end DecimalMachine
