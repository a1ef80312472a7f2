/-
# The events of a step

A step that fetches an instruction tells one block of events, in this order:

| part | events |
| --- | --- |
| fetch | `MAR`, the read, `MBR`, `IR`, `PC` |
| source line | the line of the last entry of the program at the address, if there is one |
| instruction | the notice that announces it, then its own events; nothing if the word stands for none |
| ending | an error notice after a fault, a warning if control left the program |

The own events of an instruction are given by its opcode, the accumulator, the cell of its operand and the
answer of the input source (`Instruction.ownEvents`). The source line is the one of the program, whatever
was stored in the cell since it was loaded. `Machine.events_step` puts the parts together.
-/

import DecimalMachine.Proofs.Machine.Fetches

namespace DecimalMachine

/-- An event of what an instruction does to registers, cells and flags, or of a word that it puts out. -/
def Event.isAction : Event → Bool
  | registerChanged _ _ | memoryWritten _ _ | memoryRead _ | flagsChanged _ | output _ => true
  | cycleAdvanced _ | runStateChanged _ | lineExecuted _ | notice _ _ => false

namespace Instruction

/-- The events of a cell that is read. -/
def operandEvents (operand : Nat) (cell : Int) : List Event :=
  [.registerChanged .mar operand, .memoryRead operand, .registerChanged .mbr cell]

/-- The events of a result that the accumulator takes; one that is no word it does not take. -/
def resultEvents (value : Int) : List Event :=
  if InWordRange value then [.registerChanged .ac value, .flagsChanged (.ofAc value)] else []

/-- The events of an instruction itself, where the accumulator holds `ac`, the cell of the operand holds
`cell`, and the input source has the answer `answer`. -/
def ownEvents (i : Instruction) (ac cell : Int) (answer : Option Int) : List Event :=
  match i.opcode with
  | .halt | .nop => []
  | .add => operandEvents i.operand cell ++ resultEvents (ac + cell)
  | .sub => operandEvents i.operand cell ++ resultEvents (ac - cell)
  | .store =>
    [.registerChanged .mar i.operand, .registerChanged .mbr ac, .memoryWritten i.operand ac]
  | .load => operandEvents i.operand cell ++ resultEvents cell
  | .branch => [.registerChanged .pc i.operand]
  | .brz => if ac = 0 then [.registerChanged .pc i.operand] else []
  | .brp => if 0 ≤ ac then [.registerChanged .pc i.operand] else []
  | .input => answer.elim [] resultEvents
  | .output => [.output ac]

/-- Reading an operand is an action. -/
theorem isAction_operandEvents (operand : Nat) (cell : Int) :
    ∀ e ∈ operandEvents operand cell, e.isAction = true := by
  simp [operandEvents, Event.isAction]

/-- A result is an action. -/
theorem isAction_resultEvents (value : Int) : ∀ e ∈ resultEvents value, e.isAction = true := by
  unfold resultEvents
  split
  · simp [Event.isAction]
  · exact nofun

/-- **What an instruction tells itself** is of registers, cells and flags, or a word put out. -/
theorem isAction_ownEvents (i : Instruction) (ac cell : Int) (answer : Option Int) :
    ∀ e ∈ i.ownEvents ac cell answer, e.isAction = true := by
  have hread (value : Int) :
      ∀ e ∈ operandEvents i.operand cell ++ resultEvents value, e.isAction = true :=
    List.forall_mem_append.2 ⟨isAction_operandEvents i.operand cell, isAction_resultEvents value⟩
  have hbranch (taken : Prop) [Decidable taken] :
      ∀ e ∈ (if taken then [.registerChanged .pc i.operand] else [] : List Event),
        e.isAction = true := by
    split
    · exact List.forall_mem_singleton.2 rfl
    · exact nofun
  unfold ownEvents
  cases i.opcode with
  | halt | nop => exact nofun
  | add => exact hread (ac + cell)
  | sub => exact hread (ac - cell)
  | load => exact hread cell
  | store => simp [Event.isAction]
  | branch => exact List.forall_mem_singleton.2 rfl
  | brz => exact hbranch (ac = 0)
  | brp => exact hbranch (0 ≤ ac)
  | input =>
    cases answer with
    | none => exact nofun
    | some value => exact isAction_resultEvents value
  | output => exact List.forall_mem_singleton.2 rfl

end Instruction

namespace Progress

variable {ι : Type} (p : Progress ι)

/-! ### The events of each part -/

/-- A fetch tells of the read, of the counter and of the source line, if there is one. -/
theorem events_fetch (address : Nat) :
    (p.fetch address).journal.events =
      p.journal.events ++
        [.registerChanged .mar address, .memoryRead address,
          .registerChanged .mbr (p.machine.state.memory.get address),
          .registerChanged .ir (p.machine.state.memory.get address),
          .registerChanged .pc (address + 1)] ++
        (p.machine.program.lineAt? address).toList.map .lineExecuted := by
  have hprogram : (((p.readCell address).setRegister .ir
      (p.machine.state.memory.get address)).setRegister .pc (address + 1)).machine.program =
        p.machine.program := rfl
  unfold fetch
  dsimp only
  split
  · next line found => simp [found]
  · next missing => simp [missing]

/-- An announcement tells the address and the text of the instruction. -/
theorem events_announce (address : Nat) (i : Instruction) :
    (p.announce address i).journal.events =
      p.journal.events ++ [.notice .info (Text.addressText address ++ ": " ++ i.text)] := by
  simp [announce, notice]

/-- A result that is a word is told, and one that is none is not. -/
theorem events_accept (op : Opcode) (address : Nat) (value : Int) :
    (p.accept op address value).1.journal.events =
      p.journal.events ++ Instruction.resultEvents value := by
  unfold accept Instruction.resultEvents
  split
  · exact p.events_setAc value
  · exact (List.append_nil _).symm

/-- Arithmetic tells of its operand and of its result. -/
theorem events_arithmetic (op : Opcode) (combine : Int → Int → Int) (address operand : Nat) :
    (p.arithmetic op combine address operand).1.journal.events =
      p.journal.events ++
        (Instruction.operandEvents operand (p.machine.state.memory.get operand) ++
          Instruction.resultEvents
            (combine p.machine.state.ac (p.machine.state.memory.get operand))) := by
  rw [arithmetic, events_accept, events_readCell, List.append_assoc]
  rfl

/-- A store tells of the address, the buffer and the cell. -/
theorem events_store {operand : Nat} (room : operand < memorySize)
    (word : InWordRange p.machine.state.ac) :
    (p.store operand).1.journal.events =
      p.journal.events ++ [.registerChanged .mar operand, .registerChanged .mbr p.machine.state.ac,
        .memoryWritten operand p.machine.state.ac] := by
  have allowed := Memory.writeViolation?_eq_none_iff.2 ⟨room, word⟩
  unfold store
  dsimp only
  rw [allowed]
  simp

/-- A branch tells of the counter if it is taken. -/
theorem events_branch (operand : Nat) (taken : Prop) [Decidable taken] :
    (p.branch operand taken).journal.events =
      p.journal.events ++ if taken then [.registerChanged .pc operand] else [] := by
  unfold branch
  split
  · exact p.events_setRegister .pc operand
  · exact (List.append_nil _).symm

/-- `INPUT` tells of its answer if there is one. -/
theorem events_receive [InputSource ι] (address : Nat) :
    (p.receive address).1.journal.events =
      p.journal.events ++
        (InputSource.request p.machine.input).value.elim [] Instruction.resultEvents := by
  unfold receive
  split
  · next none => simp [none]
  · next value found => simp [found, events_accept]

/-- `OUTPUT` tells of the accumulator. -/
theorem events_send : p.send.journal.events = p.journal.events ++ [.output p.machine.state.ac] := by
  simp [send]

/-- **An instruction tells its own events**, in a state that is in range. -/
theorem events_execute [InputSource ι] (range : p.machine.state.InRange) (address : Nat)
    {i : Instruction} (room : i.operand < memorySize) :
    (p.execute address i).1.journal.events =
      p.journal.events ++ i.ownEvents p.machine.state.ac (p.machine.state.memory.get i.operand)
        (InputSource.request p.machine.input).value := by
  unfold execute Instruction.ownEvents
  cases i.opcode with
  | halt | nop => exact (List.append_nil _).symm
  | add => exact p.events_arithmetic .add (· + ·) address i.operand
  | sub => exact p.events_arithmetic .sub (· - ·) address i.operand
  | store => exact p.events_store room range.ac
  | load =>
    have hresult : Instruction.resultEvents (p.machine.state.memory.get i.operand) =
        [.registerChanged .ac (p.machine.state.memory.get i.operand),
          .flagsChanged (.ofAc (p.machine.state.memory.get i.operand))] :=
      if_pos (range.cells i.operand)
    dsimp only
    rw [events_setAc, events_readCell, hresult, List.append_assoc]
    rfl
  | branch => exact p.events_branch i.operand True
  | brz => exact p.events_branch i.operand (p.machine.state.ac = 0)
  | brp => exact p.events_branch i.operand (0 ≤ p.machine.state.ac)
  | input => exact p.events_receive address
  | output => exact p.events_send

end Progress

namespace Machine

variable {ι : Type} (m : Machine ι)

/-! ### The parts of a block -/

/-- The events of the next fetch. -/
def fetchEvents : List Event :=
  [.registerChanged .mar m.address, .memoryRead m.address, .registerChanged .mbr m.word,
    .registerChanged .ir m.word, .registerChanged .pc (m.address + 1)]

/-- The event of the source line that the next fetch comes from. -/
def lineEvents : List Event := (m.program.lineAt? m.address).toList.map .lineExecuted

/-- The events of the instruction that is fetched next: its announcement and its own ones. -/
def instructionEvents [InputSource ι] : List Event :=
  match Instruction.decode? m.word with
  | none => []
  | some i =>
    .notice .info (Text.addressText m.address ++ ": " ++ i.text) ::
      i.ownEvents m.state.ac (m.state.memory.get i.operand) (InputSource.request m.input).value

/-- The notice of a machine that just stopped, if it did not halt by an instruction. -/
def endingEvents : List Event :=
  match m.stop with
  | none | some (.halted .halt) => []
  | some (.halted .ranOffEnd) => [.notice .warning (Progress.ranOffEndMessage m.state.pc)]
  | some (.errored fault) => [.notice .error fault.message]

/-! ### Whole steps -/

variable {m}

/-- The first part of a step tells the fetch and the line. -/
theorem events_fetched : m.fetched.journal.events = m.fetchEvents ++ m.lineEvents :=
  Progress.events_fetch ⟨m, []⟩ m.address

variable [InputSource ι]

omit [InputSource ι] in
/-- The notice that settles a cycle. -/
theorem events_settle (p : Progress ι) (going : p.machine.stop = none) (ending : Ending) :
    (p.settle ending).journal.events = p.journal.events ++ (p.settle ending).next.endingEvents := by
  unfold endingEvents
  cases ending with
  | proceeded | violated => simp [Progress.settle, going]
  | halted reason =>
    cases reason with
    | halt => simp [Progress.settle, Progress.halt, Progress.setStop]
    | ranOffEnd =>
      simp [Progress.settle, Progress.halt, Progress.setStop, Progress.notice, Progress.log,
        Progress.emit]
  | faulted fault =>
    simp [Progress.settle, Progress.fault, Progress.setStop, Progress.notice]

/-- A step that executes an instruction tells the fetch, the line and the instruction. -/
theorem events_executed (range : m.state.InRange) (inside : m.pastEnd = false) {i : Instruction}
    (decoded : Instruction.decode? m.word = some i) :
    (m.executed i).1.journal.events = m.fetchEvents ++ m.lineEvents ++ m.instructionEvents := by
  have hrange := (inRange_announced range inside i).state
  have hmachine : (m.fetched.announce m.address i).machine =
      (((Progress.readCell ⟨m, []⟩ m.address).setRegister .ir m.word).setRegister .pc
        (m.address + 1)).machine := Progress.machine_fetch ⟨m, []⟩ m.address
  have hexecuted := Progress.events_execute _ hrange m.address
    (Instruction.operand_lt_of_decode? decoded)
  rw [executed, hexecuted, Progress.events_announce, events_fetched, hmachine, instructionEvents,
    decoded, List.append_assoc]
  rfl

/-- **A step tells the block of its instruction**, and nothing after its announcement if it stands for none.
-/
theorem events_cycle (range : m.state.InRange) (inside : m.pastEnd = false) :
    m.cycle.1.journal.events = m.fetchEvents ++ m.lineEvents ++ m.instructionEvents := by
  rw [cycle_of_inside inside]
  split
  · next undecoded => rw [events_fetched, instructionEvents, undecoded, List.append_nil]
  · next i decoded =>
    have hexecuted := events_executed range inside decoded
    split
    · exact hexecuted
    · exact hexecuted

/-- **The events of a step that fetches** are the fetch, the source line, the instruction, and how the step
ended. -/
theorem events_step (range : m.state.InRange) (going : m.isStopped = false)
    (inside : m.pastEnd = false) :
    m.step.journal.events =
      m.fetchEvents ++ m.lineEvents ++ m.instructionEvents ++ m.step.next.endingEvents := by
  have hgoing : m.cycle.1.machine.stop = none := by
    rw [stop_cycle]
    exact Option.not_isSome_iff_eq_none.1 (Bool.eq_false_iff.1 going)
  rw [step_of_not_isStopped going, events_settle _ hgoing m.cycle.2, events_cycle range inside]

end Machine
end DecimalMachine
