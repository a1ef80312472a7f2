/-
# Faults

An instruction that cannot be carried out stops the machine with a fault. By then the fetch has
overwritten `PC`, `IR`, `MAR` and `MBR`, and an arithmetic instruction has read its operand; nothing else
has happened. `Machine.Faulted` lists what the fault leaves alone and what it records, `Machine.Explains`
ties what it reports to the machine before the step.

| fault | reports | input asked for |
| --- | --- | :---: |
| `unknownOpcode` | the fetched word | |
| `overflow` of `ADD`, `SUB` | `AC + MBR`, `AC - MBR` | |
| `overflow` of `IN` | the value | yes |
| `inputCancelled` | | yes, there is none |

A step that faults is the fetch and what `Progress.Declined` allows, and each of these retains the
accumulator, the flags and memory (`Progress.Retains`).
-/

import DecimalMachine.Proofs.Machine.Replay

namespace DecimalMachine

/-- The address of the instruction that could not be carried out. -/
def Fault.address : Fault → Nat
  | overflow _ address _ | unknownOpcode address _ | inputCancelled address => address

/-- An event that tells of what outlasts an instruction: the accumulator or the flags were set, a cell was
written, a word was put out. -/
def Event.isLasting : Event → Bool
  | registerChanged .ac _ | flagsChanged _ | memoryWritten _ _ | output _ => true
  | _ => false

namespace Progress

variable {ι : Type} {p q r : Progress ι}

/-! ### What retains the accumulator, the flags and memory -/

/-- Between `p` and `q` nothing but the registers of the bus, the counter and the input source changed, and
no event told otherwise. -/
structure Retains (p q : Progress ι) : Prop where
  ac : q.machine.state.ac = p.machine.state.ac
  flags : q.machine.state.flags = p.machine.state.flags
  memory : q.machine.state.memory = p.machine.state.memory
  program : q.machine.program = p.machine.program
  events : AddsNo Event.isLasting p q

/-- What two parts leave alone both leave alone. -/
theorem Retains.trans (hpq : Retains p q) (hqr : Retains q r) : Retains p r where
  ac := hqr.ac.trans hpq.ac
  flags := hqr.flags.trans hpq.flags
  memory := hqr.memory.trans hpq.memory
  program := hqr.program.trans hpq.program
  events := hpq.events.trans hqr.events

variable (p)

/-- A register other than the accumulator is not asked for. -/
theorem retains_setRegister (register : Register) (h : register ≠ .ac) (value : Int) :
    Retains p (p.setRegister register value) := by
  have quiet : (Event.registerChanged register value).isLasting = false := by
    cases register <;> first | exact absurd rfl h | rfl
  have same : (p.setRegister register value).machine.state.ac = p.machine.state.ac := by
    cases register <;> first | exact absurd rfl h | rfl
  exact ⟨same, rfl, rfl, rfl, _, events_setRegister p register value,
    List.forall_mem_singleton.2 quiet⟩

/-- An event that tells of nothing lasting leaves alone what lasts. -/
theorem retains_emit {e : Event} (h : e.isLasting = false) : Retains p (p.emit e) :=
  ⟨rfl, rfl, rfl, rfl, p.addsNo_emit h⟩

/-- A log record leaves everything alone. -/
theorem retains_log (level : Level) (message : String) : Retains p (p.log level message) :=
  ⟨rfl, rfl, rfl, rfl, p.addsNo_log level message⟩

/-- A request leaves all but the input alone. -/
theorem retains_ask [InputSource ι] : Retains p p.ask :=
  ⟨rfl, rfl, rfl, rfl, p.addsNo_ask⟩

/-- A read sets the address register and the buffer only. -/
theorem retains_readCell (address : Nat) : Retains p (p.readCell address) := by
  have hmar := p.retains_setRegister .mar (by decide) address
  have hread := hmar.trans (retains_emit _ (e := .memoryRead address) rfl)
  exact hread.trans (retains_setRegister _ .mbr (by decide) _)

/-- A fetch sets no register that lasts. -/
theorem retains_fetch (address : Nat) : Retains p (p.fetch address) := by
  have hir := (p.retains_readCell address).trans
    (retains_setRegister _ .ir (by decide) (p.machine.state.memory.get address))
  have hpc := hir.trans (retains_setRegister _ .pc (by decide) (address + 1))
  unfold fetch
  dsimp only
  split
  · exact hpc.trans (retains_emit _ rfl)
  · exact hpc

/-- An announcement leaves everything alone. -/
theorem retains_announce (address : Nat) (i : Instruction) : Retains p (p.announce address i) :=
  (p.retains_log _ _).trans (retains_emit _ rfl)

/-! ### Instructions that cannot be carried out -/

variable [InputSource ι]

/-- The ways in which an instruction that was fetched from `address` cannot be carried out, with what
happens before that comes out. -/
inductive Declined (address : Nat) : Instruction → Progress ι → Fault → Prop
  | add {operand : Nat}
      (outside : ¬ InWordRange (p.machine.state.ac + p.machine.state.memory.get operand)) :
      Declined address ⟨.add, operand⟩ (p.readCell operand)
        (.overflow .add address (p.machine.state.ac + p.machine.state.memory.get operand))
  | sub {operand : Nat}
      (outside : ¬ InWordRange (p.machine.state.ac - p.machine.state.memory.get operand)) :
      Declined address ⟨.sub, operand⟩ (p.readCell operand)
        (.overflow .sub address (p.machine.state.ac - p.machine.state.memory.get operand))
  | input {operand : Nat} {value : Int}
      (given : (InputSource.request p.machine.input).value = some value)
      (outside : ¬ InWordRange value) :
      Declined address ⟨.input, operand⟩ (p.ask.log .debug ("IN: read " ++ toString value))
        (.overflow .input address value)
  | cancelled {operand : Nat} (missing : (InputSource.request p.machine.input).value = none) :
      Declined address ⟨.input, operand⟩ p.ask (.inputCancelled address)

variable {p} {address : Nat} {fault : Fault}

omit [InputSource ι] in
/-- A result that is refused is too large for a word, and has no effect. -/
theorem accept_faulted {op : Opcode} {value : Int}
    (h : (p.accept op address value).2 = .faulted fault) :
    ¬ InWordRange value ∧ (p.accept op address value).1 = p ∧ fault = .overflow op address value := by
  unfold accept at h ⊢
  split at h
  · cases h
  · next outside =>
    rw [if_neg outside]
    exact ⟨outside, rfl, (Ending.faulted.inj h).symm⟩

omit [InputSource ι] in
/-- Arithmetic that fails has read its operand and done no more. -/
theorem arithmetic_faulted {op : Opcode} {combine : Int → Int → Int} {operand : Nat}
    (h : (p.arithmetic op combine address operand).2 = .faulted fault) :
    ¬ InWordRange (combine p.machine.state.ac (p.machine.state.memory.get operand)) ∧
      (p.arithmetic op combine address operand).1 = p.readCell operand ∧
      fault = .overflow op address
        (combine p.machine.state.ac (p.machine.state.memory.get operand)) :=
  accept_faulted h

/-- `INPUT` fails if there is no answer, or one that is no word. -/
theorem receive_faulted {operand : Nat} (h : (p.receive address).2 = .faulted fault) :
    p.Declined address ⟨.input, operand⟩ (p.receive address).1 fault := by
  unfold receive at h ⊢
  split at h
  · next missing =>
    cases h
    exact .cancelled missing
  · next value given =>
    obtain ⟨outside, same, rfl⟩ := accept_faulted h
    rw [same]
    exact .input given outside

omit [InputSource ι] in
/-- A store never fails. -/
theorem store_not_faulted (operand : Nat) : (p.store operand).2 ≠ .faulted fault := by
  unfold store
  dsimp only
  split <;> nofun

/-- Only arithmetic and `IN` can fail once the instruction is known. -/
theorem execute_faulted {i : Instruction} (h : (p.execute address i).2 = .faulted fault) :
    p.Declined address i (p.execute address i).1 fault := by
  obtain ⟨op, operand⟩ := i
  cases op with
  | halt | nop | load | branch | brz | brp | output => nomatch h
  | store => exact absurd h (store_not_faulted operand)
  | add =>
    have harithmetic : (p.arithmetic .add (· + ·) address operand).2 = .faulted fault := h
    obtain ⟨outside, same, rfl⟩ := arithmetic_faulted harithmetic
    have hread : (p.execute address ⟨.add, operand⟩).1 = p.readCell operand := same
    rw [hread]
    exact .add outside
  | sub =>
    have harithmetic : (p.arithmetic .sub (· - ·) address operand).2 = .faulted fault := h
    obtain ⟨outside, same, rfl⟩ := arithmetic_faulted harithmetic
    have hread : (p.execute address ⟨.sub, operand⟩).1 = p.readCell operand := same
    rw [hread]
    exact .sub outside
  | input => exact receive_faulted h

/-- An instruction that fails leaves alone what lasts. -/
theorem Declined.retains {i : Instruction} (h : p.Declined address i q fault) : Retains p q := by
  cases h with
  | add | sub => exact p.retains_readCell _
  | input => exact p.retains_ask.trans (retains_log _ _ _)
  | cancelled => exact p.retains_ask

/-- A fault names the address of its instruction. -/
theorem Declined.address_eq {i : Instruction} (h : p.Declined address i q fault) :
    fault.address = address := by
  cases h <;> rfl

/-- An instruction that is declined leaves the counter and the instruction register. -/
theorem Declined.fetched {i : Instruction} (h : p.Declined address i q fault) :
    q.machine.state.pc = p.machine.state.pc ∧ q.machine.state.ir = p.machine.state.ir := by
  cases h <;> exact ⟨rfl, rfl⟩

end Progress

namespace Machine

variable {ι : Type} [InputSource ι]

/-! ### What a fault reports -/

/-- What a fault reports is so, told from the machine before the step and the one after it. -/
inductive Explains (before after : Machine ι) : Fault → Prop
  | unknownOpcode (unknown : Instruction.decode? after.state.ir = none)
      (unasked : after.input = before.input) :
      Explains before after (.unknownOpcode before.address after.state.ir)
  | add {operand : Nat} (decoded : Instruction.decode? after.state.ir = some ⟨.add, operand⟩)
      (read : after.state.registers.mbr = before.state.memory.get operand)
      (outside : ¬ InWordRange (before.state.ac + after.state.registers.mbr))
      (unasked : after.input = before.input) :
      Explains before after
        (.overflow .add before.address (before.state.ac + after.state.registers.mbr))
  | sub {operand : Nat} (decoded : Instruction.decode? after.state.ir = some ⟨.sub, operand⟩)
      (read : after.state.registers.mbr = before.state.memory.get operand)
      (outside : ¬ InWordRange (before.state.ac - after.state.registers.mbr))
      (unasked : after.input = before.input) :
      Explains before after
        (.overflow .sub before.address (before.state.ac - after.state.registers.mbr))
  | input {operand : Nat} {value : Int}
      (decoded : Instruction.decode? after.state.ir = some ⟨.input, operand⟩)
      (given : (InputSource.request before.input).value = some value)
      (outside : ¬ InWordRange value)
      (consumed : after.input = (InputSource.request before.input).source) :
      Explains before after (.overflow .input before.address value)
  | inputCancelled {operand : Nat}
      (decoded : Instruction.decode? after.state.ir = some ⟨.input, operand⟩)
      (missing : (InputSource.request before.input).value = none)
      (asked : after.input = (InputSource.request before.input).source) :
      Explains before after (.inputCancelled before.address)

/-- What a step that stops a machine with a fault leaves alone, and what it records. -/
structure Faulted (before : Machine ι) (fault : Fault)
    (turn : Turn (Machine ι) (Except Violation Bool)) : Prop where
  result : turn.result = .ok false
  ac : turn.next.state.ac = before.state.ac
  flags : turn.next.state.flags = before.state.flags
  memory : turn.next.state.memory = before.state.memory
  program : turn.next.program = before.program
  /-- No event tells of an output, or that the accumulator, the flags or a cell changed. -/
  quiet : ∀ e ∈ turn.journal.events, e.isLasting = false
  /-- The step ends with the notice of the fault. -/
  told : turn.journal.events.getLast? = some (.notice .error fault.message)
  address : (fault.address : Int) = before.state.pc
  pc : turn.next.state.pc = fault.address + 1
  ir : turn.next.state.ir = before.state.memory.get fault.address
  explained : before.Explains turn.next fault

variable {m : Machine ι} {fault : Fault}

/-! ### Steps that fault -/

/-- A cycle that faults is the fetch of a word that stands for nothing, or an instruction that is declined. -/
theorem cycle_faulted (h : m.cycle.2 = .faulted fault) :
    m.pastEnd = false ∧
      ((Instruction.decode? m.word = none ∧ m.cycle.1 = m.fetched ∧
          fault = .unknownOpcode m.address m.word) ∨
        ∃ i, Instruction.decode? m.word = some i ∧
          (m.fetched.announce m.address i).Declined m.address i m.cycle.1 fault) := by
  cases inside : m.pastEnd with
  | true =>
    rw [cycle_of_pastEnd inside] at h
    cases h
  | false =>
    refine ⟨rfl, ?_⟩
    rw [cycle_of_inside inside] at h ⊢
    split at h
    · exact .inl ⟨by assumption, by simp [*], (Ending.faulted.inj h).symm⟩
    · next i decoded =>
      split at h
      · cases h
      · next left =>
        rw [if_neg left]
        exact .inr ⟨i, decoded, Progress.execute_faulted h⟩

/-- A machine that a step stopped with a fault had a cycle that ended in it. -/
theorem cycle_of_errored (running : m.stop = none) (h : m.step.next.stop = some (.errored fault)) :
    m.cycle.2 = .faulted fault ∧ m.step = m.cycle.1.settle (.faulted fault) := by
  have going : m.isStopped = false := by rw [isStopped, running]; rfl
  have hcycle : m.cycle.1.machine.stop = none := m.stop_cycle.trans running
  rw [step_of_not_isStopped going] at h ⊢
  cases ending : m.cycle.2 with
  | proceeded | violated =>
    rw [ending, Progress.settle, hcycle] at h
    cases h
  | halted reason =>
    rw [ending] at h
    cases h
  | faulted other =>
    rw [ending] at h
    obtain rfl : other = fault := Stop.errored.inj (Option.some.inj h)
    exact ⟨rfl, rfl⟩

/-- A step that fails leaves alone what lasts. -/
theorem retains_cycle (h : m.cycle.2 = .faulted fault) : Progress.Retains ⟨m, []⟩ m.cycle.1 := by
  have hfetched : Progress.Retains ⟨m, []⟩ m.fetched := Progress.retains_fetch _ _
  obtain ⟨-, ⟨-, same, -⟩ | ⟨i, -, declined⟩⟩ := cycle_faulted h
  · rw [same]
    exact hfetched
  · exact (hfetched.trans (Progress.retains_announce _ _ i)).trans declined.retains

omit [InputSource ι] in
/-- What an instruction finds that was just fetched: `IR` and the counter are new, the accumulator, memory
and the input source are those of the machine before. -/
theorem announced_fetched (m : Machine ι) (i : Instruction) :
    let p := m.fetched.announce m.address i
    p.machine.state.ir = m.word ∧ p.machine.state.pc = m.address + 1 ∧
      p.machine.state.ac = m.state.ac ∧ p.machine.state.memory = m.state.memory ∧
      p.machine.input = m.input := by
  exact ⟨m.ir_fetched, m.frame_fetched⟩

/-- An instruction that is declined right after its fetch explains the fault. -/
theorem explains_of_declined {i : Instruction} {q : Progress ι}
    (decoded : Instruction.decode? m.word = some i)
    (declined : (m.fetched.announce m.address i).Declined m.address i q fault) :
    m.Explains q.machine fault := by
  obtain ⟨hir, -, hac, hmemory, hinput⟩ := m.announced_fetched i
  have hsource := congrArg (fun source => (InputSource.request source).source) hinput
  rw [← hir, ← declined.fetched.2] at decoded
  cases declined with
  | @add operand outside =>
    -- What was read is what the bus holds now, so `outside` speaks of `MBR`.
    have hread := congrArg (Memory.get · operand) hmemory
    rw [hac] at outside ⊢
    exact .add decoded hread outside hinput
  | @sub operand outside =>
    have hread := congrArg (Memory.get · operand) hmemory
    rw [hac] at outside ⊢
    exact .sub decoded hread outside hinput
  | input given outside =>
    rw [hinput] at given
    exact .input decoded given outside hsource
  | cancelled missing =>
    rw [hinput] at missing
    exact .inputCancelled decoded missing hsource

/-- A cycle that faults leaves the counter behind the word that it fetched, and the fault is explained. -/
theorem explains_cycle (h : m.cycle.2 = .faulted fault) :
    fault.address = m.address ∧ m.cycle.1.machine.state.pc = m.address + 1 ∧
      m.cycle.1.machine.state.ir = m.word ∧ m.Explains m.cycle.1.machine fault := by
  obtain ⟨-, ⟨unknown, same, rfl⟩ | ⟨i, decoded, declined⟩⟩ := cycle_faulted h
  · have hir := m.ir_fetched
    obtain ⟨hpc, -, -, hinput⟩ := m.frame_fetched
    have explained := Explains.unknownOpcode (hir.symm ▸ unknown) hinput
    rw [hir] at explained
    rw [same]
    exact ⟨rfl, hpc, hir, explained⟩
  · obtain ⟨hir, hpc, -⟩ := m.announced_fetched i
    obtain ⟨samePc, sameIr⟩ := declined.fetched
    exact ⟨declined.address_eq, samePc.trans hpc, sameIr.trans hir,
      explains_of_declined decoded declined⟩

omit [InputSource ι] in
/-- A queue loses a number only to an `IN` that read one that is no word. -/
theorem Explains.queue {before after : Machine (List Int)} (h : before.Explains after fault) :
    before.input = after.input ∨
      ∃ value, fault = .overflow .input before.address value ∧ before.input = value :: after.input := by
  cases h with
  | unknownOpcode _ unasked | add _ _ _ unasked | sub _ _ _ unasked => exact .inl unasked.symm
  | @input operand value decoded given outside consumed =>
    refine .inr ⟨value, rfl, ?_⟩
    rw [consumed]
    cases queue : before.input with
    | nil => rw [queue] at given; cases given
    | cons first rest =>
      rw [queue] at given
      obtain rfl : first = value := Option.some.inj given
      rfl
  | inputCancelled _ missing asked =>
    left
    rw [asked]
    cases queue : before.input with
    | nil => rfl
    | cons first rest => rw [queue] at missing; cases missing

/-- A fault explains itself by the state and the input source alone. -/
theorem Explains.of_eq {before after other : Machine ι} (h : before.Explains after fault)
    (state : other.state = after.state) (input : other.input = after.input) :
    before.Explains other fault := by
  cases h with
  | unknownOpcode | add | sub | input | inputCancelled =>
    rw [← state] at *
    rw [← input] at *
    constructor <;> assumption

/-! ### The whole step -/

/-- **A step that stops a machine with a fault** leaves alone everything but the registers of the fetch and
the input source, and records what the fault reports. -/
theorem faulted_step (running : m.stop = none) (h : m.step.next.stop = some (.errored fault)) :
    m.Faulted fault m.step := by
  obtain ⟨ending, settled⟩ := cycle_of_errored running h
  obtain ⟨haddress, hpc, hir, explained⟩ := explains_cycle ending
  have retained := retains_cycle ending
  obtain ⟨added, hadded, quiet⟩ := retained.events
  have hevents : m.step.journal.events = added ++ [.notice .error fault.message] := by
    have hfault : (m.cycle.1.settle (.faulted fault)).journal.events =
        m.cycle.1.journal.events ++ [.notice .error fault.message] := by
      simp [Progress.settle, Progress.fault, Progress.setStop, Progress.notice]
    rw [settled, hfault, hadded]
    rfl
  have counter := (m.address_lt_extent (cycle_faulted ending).1).1
  refine
    { result := by rw [settled]; rfl
      ac := by rw [settled]; exact retained.ac
      flags := by rw [settled]; exact retained.flags
      memory := by rw [settled]; exact retained.memory
      program := by rw [settled]; exact retained.program
      quiet := ?_, told := ?_, address := ?_, pc := ?_, ir := ?_, explained := ?_ }
  · rw [hevents, List.forall_mem_append]
    exact ⟨quiet, List.forall_mem_singleton.2 rfl⟩
  · rw [hevents, List.getLast?_concat]
  · rw [haddress, counter]
  · rw [haddress, settled]
    exact hpc
  · rw [haddress, settled]
    exact hir
  · rw [settled]
    exact explained.of_eq rfl rfl

/-- **A fault is atomic and truthfully recorded**, on every machine. The step that stops it changes neither
the accumulator, the flags, memory nor the program, and no event tells otherwise; what the fault reports is
what was fetched, computed or read. From then on the machine does nothing, with whatever input source, until
it is loaded or reset. -/
theorem fault_is_atomic (m : Machine ι) {fault : Fault} (running : m.stop = none)
    (h : m.step.next.stop = some (.errored fault)) :
    m.Faulted fault m.step ∧
      ∀ (input : ι) (count : Nat),
        (m.step.next.setInput input).steps count =
          ⟨m.step.next.setInput input, [], List.replicate count (.ok false)⟩ := by
  refine ⟨faulted_step running h, fun input count => steps_of_isStopped ?_ count⟩
  rw [isStopped, setInput, h]
  rfl

/-- A machine that has loaded 700 into the accumulator and is about to add 700 to it, with one number to
read. -/
def doubling : Machine (List Int) :=
  (((new [7]).load (.ofWords [503, 103, 0, 700])).next.steps 1).next

/-- The addition reports 1400 and leaves 700; two later steps do not read the number that is given then. -/
theorem fault_is_atomic_doubling :
    doubling.stop = none ∧
      doubling.step.next.stop = some (.errored (.overflow .add 1 1400)) ∧
      doubling.Faulted (.overflow .add 1 1400) doubling.step ∧
      doubling.step.next.state.registers = ⟨2, 700, 103, 3, 700⟩ ∧
      doubling.step.next.input = [7] ∧
      (doubling.step.next.setInput [8]).steps 2 =
        ⟨doubling.step.next.setInput [8], [], [.ok false, .ok false]⟩ := by
  have running : doubling.stop = none := by decide +kernel
  have stopped : doubling.step.next.stop = some (.errored (.overflow .add 1 1400)) := by
    decide +kernel
  obtain ⟨faulted, frozen⟩ := doubling.fault_is_atomic running stopped
  exact ⟨running, stopped, faulted, by decide +kernel, by decide +kernel, frozen [8] 2⟩

end Machine
end DecimalMachine
