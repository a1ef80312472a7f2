/-
# Machines that work alike

What a machine does is determined by its state, its program, its stop and the answers that its input source
will give. How the source keeps these answers, what it writes to the log and how often it prompts is not
seen by the observers. So two machines are alike if they agree in the first three and their sources hold
the same values, and alike machines stay alike: every step of the one is one of the other, with the same
events, the same result and the same requests.

| relation | says |
| --- | --- |
| `InputSource.Alike` | the answers to any number of requests are the same |
| `Machine.Alike` | state, program and stop are the same, and the sources are alike |
| `Progress.Alike` | the machines are alike, and the events so far are the same |
| `Turn.Alike` | what follows is related, and events and results are the same |
-/

import DecimalMachine.Console.Input
import DecimalMachine.Proofs.Machine.Loaded

namespace DecimalMachine

/-! ### Input sources -/

namespace InputSource

variable {ι κ : Type} [InputSource ι] [InputSource κ]

/-- What a source becomes by a number of requests. -/
def after : (count : Nat) → ι → ι
  | 0, source => source
  | count + 1, source => after count (request source).source

/-- The answers of a source to its next requests. -/
def answers : (count : Nat) → ι → List (Option Int)
  | 0, _ => []
  | count + 1, source => (request source).value :: answers count (request source).source

/-- Two sources that hold the same values. -/
def Alike (source : ι) (other : κ) : Prop := ∀ count, answers count source = answers count other

/-- Requests can be made in two parts. -/
theorem after_add (a b : Nat) (source : ι) : after (a + b) source = after b (after a source) := by
  induction a generalizing source with
  | zero => rw [Nat.zero_add, after]
  | succ a ih => rw [Nat.succ_add, after, after, ih]

/-- There is one answer to each request. -/
theorem length_answers (count : Nat) (source : ι) : (answers count source).length = count := by
  induction count generalizing source with
  | zero => rfl
  | succ count ih => rw [answers, List.length_cons, ih]

namespace Alike

variable {source : ι} {other : κ}

/-- Alike sources answer the next request alike. -/
theorem value (h : Alike source other) : (request source).value = (request other).value :=
  (List.cons.inj (h 1)).1

/-- Alike sources stay alike after a request. -/
theorem next (h : Alike source other) : Alike (request source).source (request other).source :=
  fun count => (List.cons.inj (h (count + 1))).2

/-- Sources are alike if their next answers are the same and they are alike after them. -/
theorem of_next (value : (request source).value = (request other).value)
    (next : Alike (request source).source (request other).source) : Alike source other
  | 0 => rfl
  | count + 1 => congrArg₂ List.cons value (next count)

end Alike

/-- A console and a queue of which nothing is left are alike. -/
theorem alike_empty : Alike (⟨[]⟩ : Console) ([] : List Int) := by
  intro count
  induction count with
  | zero => rfl
  | succ count ih => exact congrArg (none :: ·) ih

end InputSource

/-! ### Turns -/

/-- Journals with the same events, part by part, have the same events. -/
theorem Journal.events_append_congr {j j' k k' : Journal} (first : j.events = j'.events)
    (second : k.events = k'.events) : (j ++ k).events = (j' ++ k').events := by
  rw [Journal.events_append, Journal.events_append, first, second]

/-- Turns of which an observer sees the same, and after which there is what is related. -/
structure Turn.Alike {σ τ α : Type} (related : σ → τ → Prop) (turn : Turn σ α) (other : Turn τ α) :
    Prop where
  next : related turn.next other.next
  events : turn.journal.events = other.journal.events
  result : turn.result = other.result

/-- Turns after turns, with the same result in the end. -/
theorem Turn.Alike.append {ρ ρ' σ τ α β γ : Type} {before : ρ → ρ' → Prop} {related : σ → τ → Prop}
    {first : Turn ρ α} {second : Turn σ β} {first' : Turn ρ' α} {second' : Turn τ β}
    (h : first.Alike before first') (k : second.Alike related second') {last last' : γ}
    (result : last = last') :
    Turn.Alike related ⟨second.next, first.journal ++ second.journal, last⟩
      ⟨second'.next, first'.journal ++ second'.journal, last'⟩ where
  next := k.next
  events := Journal.events_append_congr h.events k.events
  result := result

/-! ### The parts of a step -/

variable {ι κ : Type} [InputSource ι] [InputSource κ]

/-- Two machines that work alike. -/
structure Machine.Alike (m : Machine ι) (n : Machine κ) : Prop where
  state : m.state = n.state
  program : m.program = n.program
  stop : m.stop = n.stop
  input : InputSource.Alike m.input n.input

/-- Two machines that work alike, in the middle of an operation of which the same was told. -/
structure Progress.Alike (p : Progress ι) (q : Progress κ) : Prop where
  machine : p.machine.Alike q.machine
  events : p.journal.events = q.journal.events

/-- The same of operations that ended. -/
structure Progress.EndedAlike (p : Progress ι × Ending) (q : Progress κ × Ending) : Prop where
  progress : p.1.Alike q.1
  ending : p.2 = q.2

namespace Progress.Alike

variable {p : Progress ι} {q : Progress κ}

/-- A change of the state, and what is told of it. -/
theorem change (h : p.Alike q) (f : State → State) (j : Journal) :
    Alike (⟨p.machine.setState (f p.machine.state), p.journal ++ j⟩ : Progress ι)
      (⟨q.machine.setState (f q.machine.state), q.journal ++ j⟩ : Progress κ) where
  machine := ⟨congrArg f h.machine.state, h.machine.program, h.machine.stop, h.machine.input⟩
  events := Journal.events_append_congr h.events rfl

/-- Alike progress tells the same event. -/
theorem emit (h : p.Alike q) (e : Event) : (p.emit e).Alike (q.emit e) := h.change id _

/-- What is logged is not compared. -/
theorem log (h : p.Alike q) (level : Level) (message : String) :
    (p.log level message).Alike (q.log level message) :=
  h.change id _

/-- Alike progress gives the same notice. -/
theorem notice (h : p.Alike q) (severity : Severity) (message : String) :
    (p.notice severity message).Alike (q.notice severity message) :=
  h.emit _

/-- Setting a register keeps machines alike. -/
theorem setRegister (h : p.Alike q) (register : Register) (value : Int) :
    (p.setRegister register value).Alike (q.setRegister register value) :=
  h.change (·.setRegister register value) _

/-- Setting the accumulator keeps machines alike. -/
theorem setAc (h : p.Alike q) (value : Int) : (p.setAc value).Alike (q.setAc value) :=
  (h.setRegister .ac value).change (·.setFlags (.ofAc value)) _

/-- Writing a cell keeps machines alike. -/
theorem writeCell (h : p.Alike q) (address : Nat) (value : Int) :
    (p.writeCell address value).Alike (q.writeCell address value) :=
  h.change (·.setCell address value) _

/-- A read finds the same word in both memories. -/
theorem readCell (h : p.Alike q) (address : Nat) : (p.readCell address).Alike (q.readCell address) := by
  unfold Progress.readCell
  rw [h.machine.state]
  exact ((h.setRegister .mar address).emit _).setRegister .mbr _

/-- A fetch finds the same word and the same source line. -/
theorem fetch (h : p.Alike q) (address : Nat) : (p.fetch address).Alike (q.fetch address) := by
  unfold Progress.fetch
  dsimp only
  rw [h.machine.state, h.machine.program]
  have hpc := ((h.readCell address).setRegister .ir
    (q.machine.state.memory.get address)).setRegister .pc (address + 1)
  cases q.machine.program.lineAt? address with
  | some line => exact hpc.emit _
  | none => exact hpc

/-- The same instruction is announced alike. -/
theorem announce (h : p.Alike q) (address : Nat) (i : Instruction) :
    (p.announce address i).Alike (q.announce address i) :=
  (h.log _ _).notice _ _

/-- Both results are words, or both overflow. -/
theorem accept (h : p.Alike q) (op : Opcode) (address : Nat) (value : Int) :
    EndedAlike (p.accept op address value) (q.accept op address value) := by
  unfold Progress.accept
  split
  · exact ⟨h.setAc value, rfl⟩
  · exact ⟨h, rfl⟩

/-- The operands are the same, and so is what they come to. -/
theorem arithmetic (h : p.Alike q) (op : Opcode) (combine : Int → Int → Int) (address operand : Nat) :
    EndedAlike (p.arithmetic op combine address operand) (q.arithmetic op combine address operand) := by
  unfold Progress.arithmetic
  rw [h.machine.state]
  exact (h.readCell operand).accept op address _

/-- The same word is stored, or the same violation found. -/
theorem store (h : p.Alike q) (operand : Nat) : EndedAlike (p.store operand) (q.store operand) := by
  unfold Progress.store
  dsimp only
  rw [h.machine.state]
  have hmbr := (h.setRegister .mar operand).setRegister .mbr q.machine.state.ac
  split
  · exact ⟨hmbr, rfl⟩
  · exact ⟨hmbr.writeCell operand _, rfl⟩

/-- A branch is taken in both or in neither. -/
theorem branch (h : p.Alike q) (operand : Nat) (taken : Prop) [Decidable taken] :
    (p.branch operand taken).Alike (q.branch operand taken) := by
  unfold Progress.branch
  split
  · exact h.setRegister .pc operand
  · exact h

/-- A request moves both sources on, whatever they log and prompt. -/
theorem ask (h : p.Alike q) : p.ask.Alike q.ask where
  machine := ⟨h.machine.state, h.machine.program, h.machine.stop, h.machine.input.next⟩
  events := by
    have hsilent : (InputSource.request p.machine.input).journal.events =
        (InputSource.request q.machine.input).journal.events := by
      rw [InputSource.events_request, InputSource.events_request]
    exact Journal.events_append_congr h.events hsilent

/-- Both sources answer with the same word, or are both at their end. -/
theorem receive (h : p.Alike q) (address : Nat) : EndedAlike (p.receive address) (q.receive address) := by
  unfold Progress.receive
  rw [h.machine.input.value]
  split
  · exact ⟨h.ask, rfl⟩
  · exact (h.ask.log _ _).accept .input address _

/-- The same word is put out. -/
theorem send (h : p.Alike q) : p.send.Alike q.send := by
  unfold Progress.send
  rw [h.machine.state]
  exact (h.log _ _).emit _

/-- **Every instruction keeps machines alike**, with one case for each opcode. -/
theorem execute (h : p.Alike q) (address : Nat) (i : Instruction) :
    EndedAlike (p.execute address i) (q.execute address i) := by
  unfold Progress.execute
  cases i.opcode with
  | halt | nop => exact ⟨h, rfl⟩
  | add | sub => exact h.arithmetic _ _ address i.operand
  | store => exact h.store i.operand
  | load =>
    dsimp only
    rw [h.machine.state]
    exact ⟨(h.readCell i.operand).setAc _, rfl⟩
  | branch => exact ⟨h.branch i.operand True, rfl⟩
  | brz | brp =>
    dsimp only
    rw [h.machine.state]
    exact ⟨h.branch i.operand _, rfl⟩
  | input => exact h.receive address
  | output => exact ⟨h.send, rfl⟩

/-- The same stop keeps machines alike. -/
theorem setStop (h : p.Alike q) (stop : Stop) : (p.setStop stop).Alike (q.setStop stop) where
  machine := ⟨h.machine.state, h.machine.program, rfl, h.machine.input⟩
  events := h.events

/-- Both machines halt for the same reason. -/
theorem halt (h : p.Alike q) (reason : HaltReason) : (p.halt reason).Alike (q.halt reason) := by
  unfold Progress.halt
  rw [h.machine.state]
  cases reason with
  | halt => exact (h.log _ _).setStop _
  | ranOffEnd => exact ((h.log _ _).notice _ _).setStop _

/-- Both machines fail with the same fault. -/
theorem fault (h : p.Alike q) (fault : Fault) : (p.fault fault).Alike (q.fault fault) :=
  ((h.log _ _).notice _ _).setStop _

/-- The end of a step stops both machines or neither. -/
theorem settle (h : p.Alike q) (ending : Ending) :
    (p.settle ending).Alike Machine.Alike (q.settle ending) := by
  cases ending with
  | proceeded | violated => exact ⟨h.machine, h.events, rfl⟩
  | halted reason => exact ⟨(h.halt reason).machine, (h.halt reason).events, rfl⟩
  | faulted fault => exact ⟨(h.fault fault).machine, (h.fault fault).events, rfl⟩

end Progress.Alike

/-! ### Steps -/

namespace Machine.Alike

variable {m : Machine ι} {n : Machine κ}

/-- Alike machines are stopped alike. -/
theorem isStopped (h : m.Alike n) : m.isStopped = n.isStopped := by
  unfold Machine.isStopped
  rw [h.stop]

/-- Alike machines have left their program alike. -/
theorem pastEnd (h : m.Alike n) : m.pastEnd = n.pastEnd := by
  unfold Machine.pastEnd
  rw [h.state, h.program]

/-- Alike machines ask for input in the same step. -/
theorem awaitsInput (h : m.Alike n) : m.awaitsInput = n.awaitsInput := by
  unfold Machine.awaitsInput
  rw [h.isStopped, h.pastEnd, h.state]

/-- **A step of alike machines**, before its end is settled. -/
theorem cycle (h : m.Alike n) : Progress.EndedAlike m.cycle n.cycle := by
  have hstart : Progress.Alike ⟨m, []⟩ ⟨n, []⟩ := ⟨h, rfl⟩
  unfold Machine.cycle
  dsimp only
  rw [h.pastEnd, h.state]
  have hfetched := hstart.fetch n.state.pc.toNat
  split
  · exact ⟨hstart, rfl⟩
  · rw [hfetched.machine.state]
    split
    · exact ⟨hfetched, rfl⟩
    · next i decoded =>
      have hdone := (hfetched.announce n.state.pc.toNat i).execute n.state.pc.toNat i
      rw [hdone.ending, hdone.progress.machine.pastEnd]
      split
      · exact ⟨hdone.progress, rfl⟩
      · exact hdone

/-- **A step of alike machines is the same**, and leaves them alike. -/
theorem step (h : m.Alike n) : m.step.Alike Machine.Alike n.step := by
  have hcycle := h.cycle
  unfold Machine.step
  dsimp only
  rw [h.isStopped, hcycle.ending]
  split
  · exact ⟨h, rfl, rfl⟩
  · exact hcycle.progress.settle n.cycle.2

/-- **So is any number of steps.** -/
theorem steps (h : m.Alike n) (count : Nat) : (m.steps count).Alike Machine.Alike (n.steps count) := by
  induction count generalizing m n with
  | zero => exact ⟨h, rfl, rfl⟩
  | succ count ih =>
    have hrest := ih h.step.next
    exact h.step.append hrest (congrArg₂ List.cons h.step.result hrest.result)

end Machine.Alike

/-! ### Requests -/

namespace Progress

variable (p : Progress ι)

omit [InputSource ι] in
/-- A fetch asks for nothing. -/
theorem input_fetch (address : Nat) : (p.fetch address).machine.input = p.machine.input := by
  rw [machine_fetch]
  rfl

omit [InputSource ι] in
/-- A result asks for nothing. -/
theorem input_accept (op : Opcode) (address : Nat) (value : Int) :
    (p.accept op address value).1.machine.input = p.machine.input := by
  unfold accept
  split <;> rfl

omit [InputSource ι] in
/-- A store asks for nothing. -/
theorem input_store (operand : Nat) : (p.store operand).1.machine.input = p.machine.input := by
  unfold store
  dsimp only
  split <;> rfl

omit [InputSource ι] in
/-- A branch asks for nothing. -/
theorem input_branch (operand : Nat) (taken : Prop) [Decidable taken] :
    (p.branch operand taken).machine.input = p.machine.input := by
  unfold branch
  split <;> rfl

/-- `INPUT` makes one request. -/
theorem input_receive (address : Nat) :
    (p.receive address).1.machine.input = (InputSource.request p.machine.input).source := by
  unfold receive
  split
  · rfl
  · exact input_accept _ .input address _

/-- `IN` makes one request, and no other instruction makes any. -/
theorem input_execute (address : Nat) (i : Instruction) :
    (p.execute address i).1.machine.input =
      InputSource.after (i.opcode == .input).toNat p.machine.input := by
  unfold execute
  cases i.opcode with
  | halt | nop | load | output => rfl
  | add | sub => exact input_accept _ _ address _
  | store => exact p.input_store i.operand
  | branch | brz | brp => exact p.input_branch i.operand _
  | input => exact p.input_receive address

omit [InputSource ι] in
/-- The end of a step asks for nothing. -/
theorem input_settle (ending : Ending) : (p.settle ending).next.input = p.machine.input := by
  cases ending with
  | halted reason => cases reason <;> rfl
  | proceeded | faulted _ | violated _ => rfl

end Progress

namespace Machine

/-- How many requests the next `count` steps make. -/
def requestCount : (count : Nat) → Machine ι → Nat
  | 0, _ => 0
  | count + 1, m => m.awaitsInput.toNat + requestCount count m.step.next

/-- The answers that the input source gives during the next `count` steps. -/
def received (count : Nat) (m : Machine ι) : List (Option Int) :=
  InputSource.answers (m.requestCount count) m.input

/-- A step makes a request exactly if the machine awaits input. -/
theorem input_step (m : Machine ι) :
    m.step.next.input = InputSource.after m.awaitsInput.toNat m.input := by
  unfold awaitsInput
  cases stopped : m.isStopped with
  | true =>
    rw [step_of_isStopped stopped]
    rfl
  | false =>
    rw [step_of_not_isStopped stopped, Progress.input_settle]
    cases past : m.pastEnd with
    | true =>
      rw [cycle_of_pastEnd past]
      rfl
    | false =>
      have hfetched : m.fetched.machine.input = m.input := Progress.input_fetch ⟨m, []⟩ m.address
      have hword : m.state.memory.get m.state.pc.toNat = m.word := rfl
      rw [cycle_of_inside past, hword]
      cases Instruction.decode? m.word with
      | none => exact hfetched
      | some i =>
        have hexecuted : (m.executed i).1.machine.input =
            InputSource.after (i.opcode == .input).toNat m.input := by
          have hannounced : (m.fetched.announce m.address i).machine.input = m.input := hfetched
          rw [executed, Progress.input_execute, hannounced]
        dsimp only
        split
        · exact hexecuted
        · exact hexecuted

/-- **The requests of a number of steps** are all that becomes of the input source. -/
theorem input_steps (count : Nat) (m : Machine ι) :
    (m.steps count).next.input = InputSource.after (m.received count).length m.input := by
  rw [received, InputSource.length_answers]
  induction count generalizing m with
  | zero => rfl
  | succ count ih =>
    rw [steps_succ, requestCount, InputSource.after_add, ← input_step]
    exact ih m.step.next

namespace Alike

variable {m : Machine ι} {n : Machine κ}

/-- Alike machines make as many requests. -/
theorem requestCount (h : m.Alike n) (count : Nat) : m.requestCount count = n.requestCount count := by
  induction count generalizing m n with
  | zero => rfl
  | succ count ih => rw [Machine.requestCount, Machine.requestCount, h.awaitsInput, ih h.step.next]

/-- Alike machines receive the same answers. -/
theorem received (h : m.Alike n) (count : Nat) : m.received count = n.received count := by
  unfold Machine.received
  rw [h.requestCount count]
  exact h.input _

end Alike

/-! ### From a load on -/

/-- **A load makes machines alike**, whatever they were before, if their input sources are. -/
theorem alike_load (m : Machine ι) (n : Machine κ) (sources : InputSource.Alike m.input n.input)
    {p : Program} (fits : p.Loadable) : (m.load p).Alike Machine.Alike (n.load p) where
  next := by
    rw [m.load_next fits, n.load_next fits]
    exact ⟨rfl, rfl, rfl, sources⟩
  events := by rw [m.events_load fits, n.events_load fits]
  result := by rw [m.load_result fits, n.load_result fits]

/-- Loads a program and takes a number of steps. The result lists what the steps came to and the answers
that the input source gave. -/
def replay (m : Machine ι) (p : Program) (count : Nat) :
    Turn (Machine ι) (List (Except Violation Bool) × List (Option Int)) :=
  let loading := m.load p
  let stepping := loading.next.steps count
  ⟨stepping.next, loading.journal ++ stepping.journal, stepping.result, loading.next.received count⟩

/-- **After a load the past is forgotten**: the machines are alike after any number of steps, and the load
and the steps told the same and received the same. -/
theorem alike_replay (m : Machine ι) (n : Machine κ) (sources : InputSource.Alike m.input n.input)
    {p : Program} (fits : p.Loadable) (count : Nat) :
    (m.replay p count).Alike Machine.Alike (n.replay p count) := by
  have hload := m.alike_load n sources fits
  have hsteps := hload.next.steps count
  have hreceived := hload.next.received count
  exact hload.append hsteps (congrArg₂ Prod.mk hsteps.result hreceived)

end Machine

end DecimalMachine
