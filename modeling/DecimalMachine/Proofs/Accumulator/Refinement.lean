/-
# Refinement

The machine with its bus and flags, seen without them, is the accumulator machine. `observe` is the
view and `observe_step` the simulation of one step from a state that is in range. From it follows
the refinement, for every program that fits, every queue of numbers and any number of steps.

A step is simulated in two halves. `Config.obey` is the accumulator machine over decoded
instructions, and `Config.perform_eq` ties it to the digits of a word; `view_execute` goes through
the instructions of the machine and shows that each obeys.
-/

import DecimalMachine.Proofs.Accumulator.Basic
import DecimalMachine.Proofs.Machine.Loaded

namespace DecimalMachine

/-- The words that a journal tells were put out. -/
def Journal.outputs (j : Journal) : List Int := j.events.filterMap Event.output?

/-- Outputs are put out part by part. -/
theorem Journal.outputs_append (j k : Journal) : (j ++ k).outputs = j.outputs ++ k.outputs := by
  simp [outputs]

namespace Accumulator

/-- What the accumulator machine has of a machine that put out some words. -/
def observe (m : Machine (List Int)) (outputs : List Int) : Config where
  pc := m.state.pc
  ac := m.state.ac
  cells a := m.state.memory.get a
  inputs := m.input
  outputs := outputs
  stop := m.stop

/-- The view of a machine in the middle of a step, after the words put out before it. -/
def view (before : List Int) (p : Progress (List Int)) : Config :=
  observe p.machine (before ++ p.journal.outputs)

/-- An address of a cell is its number. -/
theorem val_cellAt {k : Nat} (h : k < memorySize) : (cellAt k : Nat) = k := Nat.mod_eq_of_lt h

/-- A cell of the reference machine holds what the cell of the machine holds. -/
theorem cell_observe (m : Machine (List Int)) (outputs : List Int) {k : Nat} (h : k < memorySize) :
    (observe m outputs).cell k = m.state.memory.get k :=
  congrArg m.state.memory.get (val_cellAt h)

/-- The view of a machine of which nothing became visible yet. -/
theorem view_start (m : Machine (List Int)) (before : List Int) :
    view before ⟨m, []⟩ = observe m before := by
  rw [view, Journal.outputs, Journal.events_nil, List.filterMap_nil, List.append_nil]

/-! ### The view of each effect -/

section View

variable (before : List Int) (p : Progress (List Int))

/-- The view of a machine in the middle of a step, with what became visible in it. -/
theorem cell_view {k : Nat} (h : k < memorySize) :
    (view before p).cell k = p.machine.state.memory.get k := cell_observe _ _ h

/-- Progress that puts nothing out changes the view as far as it changes the machine. -/
theorem view_of_outputs {q : Progress (List Int)} (h : q.journal.outputs = p.journal.outputs) :
    view before q = observe q.machine (view before p).outputs := by
  rw [view, h]
  rfl

/-- A log record is not seen. -/
theorem view_log (level : Level) (message : String) :
    view before (p.log level message) = view before p :=
  view_of_outputs before p (by simp [Journal.outputs])

/-- An event that is no output is not seen. -/
theorem view_remark {e : Event} (h : e.output? = none) : view before (p.emit e) = view before p :=
  view_of_outputs before p (by simp [Journal.outputs, h])

/-- A notice is not seen. -/
theorem view_notice (severity : Severity) (message : String) :
    view before (p.notice severity message) = view before p :=
  view_remark before p rfl

/-- `OUTPUT` is seen as an output. -/
theorem view_send :
    view before p.send =
      { view before p with outputs := (view before p).outputs ++ [p.machine.state.ac] } := by
  have houtputs : p.send.journal.outputs = p.journal.outputs ++ [p.machine.state.ac] := by
    simp [Progress.send, Journal.outputs, Event.output?]
  rw [view, houtputs, ← List.append_assoc]
  rfl

/-- Of the registers the counter and the accumulator are seen. -/
theorem view_setRegister (register : Register) (value : Int) :
    view before (p.setRegister register value) =
      match register with
      | .pc => { view before p with pc := value }
      | .ac => { view before p with ac := value }
      | .ir | .mar | .mbr => view before p := by
  rw [view_of_outputs before p (by simp [Journal.outputs, Event.output?])]
  cases register <;> rfl

/-- The accumulator is seen without its flags, which follow from it. -/
theorem view_setAc (value : Int) :
    view before (p.setAc value) = { view before p with ac := value } := by
  rw [view_of_outputs before p (by simp [Journal.outputs, Event.output?])]
  rfl

/-- A read is not seen. -/
theorem view_readCell (address : Nat) : view before (p.readCell address) = view before p := by
  rw [view_of_outputs before p (by simp [Journal.outputs, Event.output?])]
  rfl

/-- A write is seen in its cell. -/
theorem view_writeCell {address : Nat} (h : address < memorySize) (value : Int) :
    view before (p.writeCell address value) = (view before p).setCell address value := by
  rw [view_of_outputs before p (by simp [Journal.outputs, Event.output?])]
  have hcells : ∀ a : Fin memorySize,
      (p.machine.state.memory.set address value).get a =
        if a = cellAt address then value else p.machine.state.memory.get a := by
    intro a
    have hsame : a = cellAt address ↔ (a : Nat) = address := by
      rw [Fin.ext_iff, val_cellAt h]
    simp only [Memory.get_set _ h, hsame]
  exact congrArg (fun cells => { view before p with cells := cells }) (funext hcells)

/-- A request is seen in what is left of the input. -/
theorem view_ask :
    view before p.ask =
      { view before p with inputs := (InputSource.request p.machine.input).source } := by
  rw [view_of_outputs before p (by simp [Journal.outputs])]
  rfl

/-! ### The view of each part of a step -/

/-- Of a fetch the counter is seen. -/
theorem view_fetch (address : Nat) :
    view before (p.fetch address) = { view before p with pc := address + 1 } := by
  unfold Progress.fetch
  dsimp only
  split
  · rw [view_remark _ _ rfl, view_setRegister, view_setRegister, view_readCell]
  · rw [view_setRegister, view_setRegister, view_readCell]

/-- An announcement is not seen. -/
theorem view_announce (address : Nat) (i : Instruction) :
    view before (p.announce address i) = view before p := by
  rw [Progress.announce, view_notice, view_log]

end View

/-! ### Instructions -/

namespace Config

/-- Carries out an instruction that was fetched from `address`. -/
def obey (c : Config) (address : Nat) (i : Instruction) : Config :=
  match i.opcode with
  | .halt => c.halt .halt
  | .add => c.accumulate .add address (c.ac + c.cell i.operand)
  | .sub => c.accumulate .sub address (c.ac - c.cell i.operand)
  | .store => c.setCell i.operand c.ac
  | .nop => c
  | .load => { c with ac := c.cell i.operand }
  | .branch => c.jump i.operand
  | .brz => if c.ac = 0 then c.jump i.operand else c
  | .brp => if 0 ≤ c.ac then c.jump i.operand else c
  | .input => c.receive address
  | .output => { c with outputs := c.outputs ++ [c.ac] }

/-- **The digits of a word are its instruction.** -/
theorem perform_eq (c : Config) (address : Nat) (word : Int) :
    c.perform address word =
      (Instruction.decode? word).elim (c.fail (.unknownOpcode address word)) (c.obey address) := by
  unfold perform Instruction.decode? Instruction.decodeFullWord? Instruction.decodeFields?
  by_cases hin : word = 901
  · simp only [hin, if_true]
    rfl
  by_cases hout : word = 902
  · simp only [hout]
    rfl
  simp only [if_neg hin, if_neg hout, operandRadix]
  generalize word.natAbs / 100 % 10 = digit
  match digit with
  | 0 | 1 | 2 | 3 | 4 | 5 | 6 | 7 | 8 => rfl
  | _ + 9 => rfl

/-- A word that stands for no instruction is a failure of the reference machine. -/
theorem perform_of_unknown (c : Config) (address : Nat) {word : Int}
    (unknown : Instruction.decode? word = none) :
    c.perform address word = c.fail (.unknownOpcode address word) := by
  rw [perform_eq, unknown, Option.elim_none]

/-- What the ending of an instruction makes of a configuration. -/
def ended (c : Config) : Ending → Config
  | .proceeded | .violated _ => c
  | .halted reason => c.halt reason
  | .faulted fault => c.fail fault

end Config

section Instructions

variable (before : List Int) (p : Progress (List Int))

/-- A result is accumulated, or overflows on both machines. -/
theorem view_accept (op : Opcode) (address : Nat) (value : Int) :
    (view before (p.accept op address value).1).ended (p.accept op address value).2 =
      (view before p).accumulate op address value := by
  unfold Progress.accept Config.accumulate
  split
  · exact view_setAc before p value
  · rfl

/-- Arithmetic accumulates what the operand gives. -/
theorem view_arithmetic (op : Opcode) (combine : Int → Int → Int) (address : Nat) {operand : Nat}
    (h : operand < memorySize) :
    (view before (p.arithmetic op combine address operand).1).ended
        (p.arithmetic op combine address operand).2 =
      (view before p).accumulate op address
        (combine (view before p).ac ((view before p).cell operand)) := by
  rw [cell_view before p h, Progress.arithmetic, view_accept, view_readCell]
  rfl

/-- A store puts the accumulator into its cell. -/
theorem view_store {operand : Nat} (h : operand < memorySize)
    (hac : InWordRange p.machine.state.ac) :
    (view before (p.store operand).1).ended (p.store operand).2 =
      (view before p).setCell operand (view before p).ac := by
  have allowed := Memory.writeViolation?_eq_none_iff.2 ⟨h, hac⟩
  unfold Progress.store
  dsimp only
  rw [allowed]
  dsimp only [Config.ended]
  rw [view_writeCell _ _ h, view_setRegister, view_setRegister]
  rfl

/-- A branch that is taken is a jump. -/
theorem view_branch (operand : Nat) (taken : Prop) [Decidable taken] :
    view before (p.branch operand taken) =
      if taken then (view before p).jump operand else view before p := by
  unfold Progress.branch
  split
  · rw [view_setRegister]; rfl
  · rfl

/-- `INPUT` receives the same answer. -/
theorem view_receive (address : Nat) :
    (view before (p.receive address).1).ended (p.receive address).2 =
      (view before p).receive address := by
  have hask := view_ask before p
  have hinputs : (view before p).inputs = p.machine.input := rfl
  unfold Progress.receive Config.receive
  rw [hinputs]
  cases queue : p.machine.input with
  | nil =>
    have hsame : view before p.ask = view before p := by
      rw [hask, queue]
      exact congrArg (fun inputs => { view before p with inputs := inputs }) queue.symm
    exact congrArg (Config.fail · (.inputCancelled address)) hsame
  | cons value rest =>
    rw [queue] at hask
    refine (view_accept before _ _ _ _).trans ?_
    rw [view_log, hask]
    rfl

/-- **Every instruction of the machine obeys** the accumulator machine. -/
theorem view_execute (address : Nat) {i : Instruction} (h : i.operand < memorySize)
    (hac : InWordRange p.machine.state.ac) :
    (view before (p.execute address i).1).ended (p.execute address i).2 =
      (view before p).obey address i := by
  unfold Progress.execute Config.obey
  cases i.opcode with
  | halt | nop => rfl
  | add => exact view_arithmetic before p _ _ address h
  | sub => exact view_arithmetic before p _ _ address h
  | store => exact view_store before p h hac
  | load =>
    rw [cell_view before p h]
    exact (view_setAc _ _ _).trans (by rw [view_readCell])
  | branch => exact view_branch before p i.operand True
  | brz => exact view_branch before p i.operand (p.machine.state.ac = 0)
  | brp => exact view_branch before p i.operand (0 ≤ p.machine.state.ac)
  | input => exact view_receive before p address
  | output => exact view_send before p

end Instructions

/-! ### Steps -/

section Steps

variable {m : Machine (List Int)}

/-- The end of a step is seen as the stop. -/
theorem view_settle (before : List Int) (p : Progress (List Int)) (ending : Ending) :
    observe (p.settle ending).next (before ++ (p.settle ending).journal.outputs) =
      (view before p).ended ending := by
  cases ending with
  | proceeded | violated => rfl
  | halted reason =>
    cases reason with
    | halt => exact congrArg (Config.halt · .halt) (view_log before p _ _)
    | ranOffEnd =>
      have hnoticed : ∀ message, view before ((p.log .warn message).notice .warning message) =
          view before p := fun message => by rw [view_notice, view_log]
      exact congrArg (Config.halt · .ranOffEnd) (hnoticed _)
  | faulted fault =>
    have hnoticed : view before ((p.log .error fault.message).notice .error fault.message) =
        view before p := by rw [view_notice, view_log]
    exact congrArg (Config.fail · fault) hnoticed

/-- A counter in range has left the program if it has reached the extent. -/
theorem pastEnd_iff (h : m.state.InRange) :
    m.pastEnd = true ↔ (m.program.extent : Int) ≤ m.state.pc := by
  have hpc : 0 ≤ m.state.pc := (h.registers .pc).1
  simp only [Machine.pastEnd, Bool.or_eq_true, decide_eq_true_eq]
  omega

/-- An instruction goes on exactly if the configuration after it is not stopped. -/
theorem stop_ended_eq_none_iff {c : Config} (h : c.stop = none) {ending : Ending}
    (sound : ∀ violation, ending ≠ .violated violation) :
    (c.ended ending).stop = none ↔ ending = .proceeded := by
  cases ending with
  | proceeded => exact iff_of_true h rfl
  | halted | faulted => exact iff_of_false nofun nofun
  | violated violation => exact absurd rfl (sound violation)

/-- The first part of a step moves the counter on. -/
theorem view_fetched (h : m.state.InRange) (before : List Int) :
    view before m.fetched = { observe m before with pc := m.state.pc + 1 } := by
  have hpc : (m.address : Int) = m.state.pc := Int.toNat_of_nonneg (h.registers .pc).1
  rw [Machine.fetched, view_fetch, view_start, hpc]

/-- An instruction leaves what the accumulator machine makes of the word at the counter. -/
theorem view_executed (h : m.state.InRange) (inside : m.pastEnd = false) {i : Instruction}
    (decoded : Instruction.decode? m.word = some i) (before : List Int) :
    (view before (m.executed i).1).ended (m.executed i).2 =
      { observe m before with pc := m.state.pc + 1 }.perform m.address m.word := by
  have hac : InWordRange (m.fetched.announce m.address i).machine.state.ac :=
    (Machine.inRange_announced h inside i).state.ac
  rw [Machine.executed,
    view_execute before _ _ (Instruction.operand_lt_of_decode? decoded) hac, view_announce,
    view_fetched h, Config.perform_eq, decoded, Option.elim_some]

/-- After an instruction that goes on, both machines look at the counter. -/
theorem view_ended_executed (h : m.state.InRange) (running : m.stop = none)
    (inside : m.pastEnd = false) {i : Instruction} (decoded : Instruction.decode? m.word = some i)
    (before : List Int) :
    ((view before (m.executed i).1).ended (m.executed i).2).stop = none ∧
        (m.program.extent : Int) ≤ ((view before (m.executed i).1).ended (m.executed i).2).pc ↔
      (m.executed i).2 = .proceeded ∧ (m.executed i).1.machine.pastEnd = true := by
  have heffects := m.executed_effects inside decoded
  have hstop : (view before (m.executed i).1).stop = none := heffects.frame.2.trans running
  have hpast := pastEnd_iff (heffects.inRange ⟨h, nofun⟩).state
  rw [heffects.frame.1] at hpast
  rw [hpast, stop_ended_eq_none_iff hstop (Machine.executed_ne_violated h inside decoded)]
  refine and_congr_right ?_
  intro proceeded
  rw [proceeded]
  rfl

/-- **A step inside the program performs the word that it fetches.** -/
theorem view_cycle_of_inside (h : m.state.InRange) (running : m.stop = none)
    (inside : m.pastEnd = false) (before : List Int) :
    let next := { observe m before with pc := m.state.pc + 1 }.perform m.address m.word
    (view before m.cycle.1).ended m.cycle.2 =
      if next.stop = none ∧ (m.program.extent : Int) ≤ next.pc then next.halt .ranOffEnd
      else next := by
  intro next
  rw [Machine.cycle_of_inside inside]
  split
  · next unknown =>
    have hfault : next = (view before m.fetched).fail (.unknownOpcode m.address m.word) := by
      rw [view_fetched h, ← Config.perform_of_unknown _ _ unknown]
    have hstopped : ¬ (next.stop = none ∧ (m.program.extent : Int) ≤ next.pc) := by
      rw [hfault]
      rintro ⟨goesOn, -⟩
      cases goesOn
    rw [if_neg hstopped, hfault]
    rfl
  · next i decoded =>
    have hnext : (view before (m.executed i).1).ended (m.executed i).2 = next :=
      view_executed h inside decoded before
    have hleft := view_ended_executed h running inside decoded before
    rw [hnext] at hleft
    by_cases left : (m.executed i).2 = .proceeded ∧ (m.executed i).1.machine.pastEnd = true
    · rw [if_pos left, if_pos (hleft.2 left), ← hnext, left.1]
      rfl
    · rw [if_neg left, if_neg (mt hleft.1 left), hnext]

/-- A cycle of a machine that is not stopped is a step of the accumulator machine. -/
theorem view_cycle (h : m.state.InRange) (running : m.stop = none) (before : List Int) :
    (view before m.cycle.1).ended m.cycle.2 = (observe m before).step m.program.extent := by
  have hrunning : ¬ (observe m before).stop.isSome = true := by
    rw [observe, running]
    nofun
  rw [Config.step, if_neg hrunning]
  cases inside : m.pastEnd with
  | true =>
    have hpast : (m.program.extent : Int) ≤ (observe m before).pc := (pastEnd_iff h).1 inside
    rw [Machine.cycle_of_pastEnd inside, if_pos hpast, view_start]
    rfl
  | false =>
    have hinside : ¬ (m.program.extent : Int) ≤ (observe m before).pc := by
      intro past
      have left := (pastEnd_iff h).2 past
      rw [inside] at left
      cases left
    have hword : (observe m before).cell m.address = m.word :=
      cell_observe m before (m.address_lt_of_pastEnd inside)
    have hcounter : (observe m before).pc.toNat = m.address := rfl
    rw [if_neg hinside, view_cycle_of_inside h running inside]
    dsimp only
    rw [hcounter, hword]
    rfl

/-- **One step is one step** of the accumulator machine, from a state that is in range. -/
theorem observe_step (h : m.state.InRange) (outputs : List Int) :
    observe m.step.next (outputs ++ m.step.journal.outputs) =
      (observe m outputs).step m.program.extent := by
  cases stopped : m.isStopped with
  | true =>
    have hstopped : (observe m outputs).stop.isSome = true := stopped
    rw [Machine.step_of_isStopped stopped, Config.step, if_pos hstopped]
    exact view_start m outputs
  | false =>
    have running : m.stop = none :=
      Option.not_isSome_iff_eq_none.1 (Bool.eq_false_iff.1 stopped)
    rw [Machine.step_of_not_isStopped stopped, view_settle, view_cycle h running]

/-- What the caller of a step is told: whether the machine goes on. -/
theorem result_step (h : m.state.InRange) (outputs : List Int) :
    m.step.result = .ok ((observe m outputs).step m.program.extent).stop.isNone := by
  rw [← observe_step h]
  obtain ⟨goesOn, hresult⟩ := Machine.step_result_of_inRange h
  cases goesOn with
  | true =>
    have hstop : (observe m.step.next (outputs ++ m.step.journal.outputs)).stop = none :=
      (Machine.step_goesOn hresult).1
    rw [hresult, hstop]
    rfl
  | false =>
    have hstop : (observe m.step.next (outputs ++ m.step.journal.outputs)).stop.isSome = true :=
      Machine.isStopped_step hresult
    rw [hresult, ← Option.not_isSome, hstop]
    rfl

/-- **Any number of steps** is that number of steps of the accumulator machine, and each tells its
caller whether the accumulator machine goes on. -/
theorem observe_steps (count : Nat) (h : m.state.InRange) (outputs : List Int) :
    observe (m.steps count).next (outputs ++ (m.steps count).journal.outputs) =
        (observe m outputs).steps m.program.extent count ∧
      (m.steps count).result =
        (List.range count).map fun done =>
          .ok ((observe m outputs).steps m.program.extent (done + 1)).stop.isNone := by
  induction count generalizing m outputs with
  | zero => exact ⟨view_start m outputs, rfl⟩
  | succ count ih =>
    obtain ⟨hlast, hresults⟩ := ih (Machine.inRange_step h).1 (outputs ++ m.step.journal.outputs)
    rw [Machine.program_step, observe_step h] at hlast hresults
    constructor
    · rw [Machine.steps_succ, Journal.outputs_append, ← List.append_assoc]
      exact hlast
    · rw [Machine.steps_succ, List.range_succ_eq_map, List.map_cons, List.map_map]
      exact congrArg₂ List.cons (result_step h outputs) hresults

end Steps

/-! ### From a load on -/

section Loaded

variable (m : Machine (List Int)) {p : Program}

/-- A load puts nothing out. -/
theorem outputs_load (h : p.Loadable) : (m.load p).journal.outputs = [] := by
  rw [Journal.outputs, m.events_load h, List.filterMap_eq_nil_iff]
  intro e member
  simp only [List.mem_append, List.mem_map, List.mem_singleton] at member
  rcases member with (⟨register, -, rfl⟩ | rfl) | ⟨entry, -, rfl⟩ <;> rfl

/-- **After a load the machine is seen as the reference machine at its start.** -/
theorem observe_load (h : p.Loadable) :
    observe (m.load p).next (m.load p).journal.outputs = start p m.input := by
  have hcells : ∀ a : Fin memorySize,
      (Program.writeAll .zero p.entries).get a = (p.entryAt? a).elim 0 Entry.word := by
    intro a
    rw [Program.get_writeAll h, Memory.get_zero]
  rw [outputs_load m h, m.load_next h]
  exact congrArg (fun cells => { start p m.input with cells := cells }) (funext hcells)

/-- **The machine refines the accumulator machine.** A program that fits is loaded, and whatever the
machine was, whatever numbers wait to be read and however many steps are taken, what the programmer
sees is what the accumulator machine makes of the program and the numbers, and each step tells its
caller whether the accumulator machine goes on. -/
theorem steps_load_refines (h : p.Loadable) (count : Nat) :
    let after := (m.load p).next.steps count
    (m.load p).result = .ok () ∧
      observe after.next ((m.load p).journal ++ after.journal).outputs =
        (start p m.input).steps p.extent count ∧
      after.result =
        (List.range count).map fun done =>
          .ok ((start p m.input).steps p.extent (done + 1)).stop.isNone := by
  have hrange : (m.load p).next.state.InRange := by
    rw [m.load_next h]
    exact h.inRange
  have hprogram : (m.load p).next.program = p := by rw [m.load_next h]
  obtain ⟨hlast, hresults⟩ := observe_steps count hrange (m.load p).journal.outputs
  rw [observe_load m h, hprogram] at hlast hresults
  refine ⟨m.load_result h, ?_, hresults⟩
  rw [Journal.outputs_append]
  exact hlast

end Loaded

/-- A program that reads a number, adds 5, puts out the sum and executes it. -/
def sumPutOut : Program := .ofWords [901, 105, 304, 902, 999, 5]

/-- A machine for which 497 and 1 wait to be read. -/
def twoWaiting : Machine (List Int) := .new [497, 1]

/-- With 497 in front the sum is `LOAD 2`, and the machine comes to the word 5, a halt. -/
theorem steps_load_sumPutOut :
    sumPutOut.Loadable ∧
      (let after := (twoWaiting.load sumPutOut).next.steps 6
        let seen :=
          observe after.next ((twoWaiting.load sumPutOut).journal ++ after.journal).outputs
        seen.ac = 304 ∧ seen.inputs = [1] ∧ seen.outputs = [502] ∧
          seen.stop = some (.halted .halt)) := by
  have fits : sumPutOut.Loadable := by decide
  refine ⟨fits, ?_⟩
  intro after seen
  have hseen : seen = (start sumPutOut [497, 1]).steps sumPutOut.extent 6 :=
    (steps_load_refines twoWaiting fits 6).2.1
  rw [hseen]
  decide +kernel

end Accumulator
end DecimalMachine
