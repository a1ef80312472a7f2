/-
# What a cell can change

A machine looks into a memory cell only over the bus, and then its observers are told. So the word in a cell
that is not read changes nothing: a machine that has another word there, and is the same apart from this,
takes the same steps, with the same events and the same results. A store into the cell takes even the
difference in memory away, and from then on nothing is left of it.

| what is done to a machine with another word in the cell | what comes of it |
| --- | --- |
| its registers, flags, input or journal are used or set | the same, with the other word in the cell |
| another cell is read or written | the same, with the other word in the cell |
| the cell is written | the same |
| the cell is read | only here the word counts |

The rows are the lemmas `…_withCell` on the parts of a step. A step that does not read the cell fetches from
another one and has another operand, so each of its parts falls under one of the first three.

That a write takes the difference away is not proved along the step again: the state after a step is what the
events tell (`Machine.followAll_steps`), and an event that tells a write makes the copies equal.
-/

import DecimalMachine.Proofs.Machine.Alike
import DecimalMachine.Proofs.Machine.Block
import DecimalMachine.Proofs.Machine.Replay

namespace DecimalMachine

/-! ### Two words for one cell -/

namespace Memory

variable (m : Memory) {a b : Nat} (value other : Int)

/-- A write beyond the last cell changes nothing. -/
theorem set_of_not_lt (h : ¬ a < memorySize) : m.set a value = m := dif_neg h

/-- The last word that is written stays. -/
theorem set_set : (m.set a value).set a other = m.set a other := by
  by_cases cell : a < memorySize
  · ext b
    rw [get_set _ cell, get_set _ cell, get_set _ cell]
    split <;> rfl
  · simp only [set_of_not_lt _ _ cell]

/-- Writes of different cells can be exchanged. -/
theorem set_comm (h : a ≠ b) : (m.set a value).set b other = (m.set b other).set a value := by
  ext c below
  by_cases atA : c = a
  · subst atA
    rw [get_set_of_ne _ h.symm, get_set_self _ below, get_set_self _ below]
  · rw [get_set_of_ne _ (Ne.symm atA)]
    by_cases atB : c = b
    · subst atB
      rw [get_set_self _ below, get_set_self _ below]
    · rw [get_set_of_ne _ (Ne.symm atB), get_set_of_ne _ (Ne.symm atB),
        get_set_of_ne _ (Ne.symm atA)]

/-- Memories that agree in every other cell differ by one write. -/
theorem set_eq_of_forall_ne {n : Memory} (h : ∀ b ≠ a, m.get b = n.get b) :
    m.set a (n.get a) = n := by
  ext b below
  by_cases same : b = a
  · subst same
    exact get_set_self m below _
  · rw [get_set_of_ne m (Ne.symm same), h b same]

end Memory

namespace Journal

/-- The journal tells a read of the cell. -/
def Reads (j : Journal) (cell : Nat) : Prop := .memoryRead cell ∈ j.events

/-- The journal tells a write of the cell. -/
def Writes (j : Journal) (cell : Nat) : Prop := ∃ word, .memoryWritten cell word ∈ j.events

instance (j : Journal) (cell : Nat) : Decidable (j.Reads cell) := inferInstanceAs (Decidable (_ ∈ _))

/-- A journal reads a cell if one of its parts does. -/
theorem reads_append {j k : Journal} {cell : Nat} :
    (j ++ k).Reads cell ↔ j.Reads cell ∨ k.Reads cell := by
  simp [Reads]

end Journal

namespace State

variable (s : State) {cell : Nat} (value : Int)

/-- A copy that follows one event, with another word in a cell that the event does not write. -/
theorem follow_setCell {e : Event} (h : ∀ word, e ≠ .memoryWritten cell word) :
    (s.setCell cell value).follow e = (s.follow e).setCell cell value := by
  cases e with
  | memoryWritten address word =>
    have other : cell ≠ address := fun same => h word (by rw [same])
    exact congrArg (State.mk s.registers s.flags) (s.memory.set_comm value word other)
  | _ => rfl

/-- After a write of the cell, copies that differed in the cell are the same. -/
theorem followAll_setCell {events : List Event} {word : Int}
    (h : .memoryWritten cell word ∈ events) :
    (s.setCell cell value).followAll events = s.followAll events := by
  induction events generalizing s with
  | nil => cases h
  | cons e rest ih =>
    rw [followAll_cons, followAll_cons]
    by_cases writes : ∃ now, e = .memoryWritten cell now
    · obtain ⟨now, rfl⟩ := writes
      have same : (s.setCell cell value).follow (.memoryWritten cell now) =
          s.follow (.memoryWritten cell now) :=
        congrArg (State.mk s.registers s.flags) (s.memory.set_set value now)
      rw [same]
    · have later : .memoryWritten cell word ∈ rest :=
        (List.mem_cons.1 h).resolve_left fun now => writes ⟨word, now.symm⟩
      rw [follow_setCell s value fun now same => writes ⟨now, same⟩, ih _ later]

end State

/-! ### The parts of a step -/

/-- The machine with another word in a cell. -/
def Machine.withCell {ι : Type} (m : Machine ι) (cell : Nat) (value : Int) : Machine ι :=
  m.setState (m.state.setCell cell value)

namespace Progress

variable {ι : Type}

/-- The machine in the middle of an operation, with another word in a cell. -/
def withCell (p : Progress ι) (cell : Nat) (value : Int) : Progress ι :=
  { p with machine := p.machine.withCell cell value }

/-- An operation that ended, and the same one with another word in a cell if the cell was not written
since. -/
def Spares (cell : Nat) (value : Int) (p q : Progress ι × Ending) : Prop :=
  q = p ∨ q = (p.1.withCell cell value, p.2)

variable (p : Progress ι) {cell : Nat} {value : Int}

/-- Every other cell holds what it held. -/
theorem get_withCell {address : Nat} (h : address ≠ cell) :
    (p.withCell cell value).machine.state.memory.get address =
      p.machine.state.memory.get address :=
  Memory.get_set_of_ne _ h.symm value

/-- A read of another cell finds the same word. -/
theorem readCell_withCell {address : Nat} (h : address ≠ cell) :
    (p.withCell cell value).readCell address = (p.readCell address).withCell cell value :=
  congrArg ((((p.withCell cell value).setRegister .mar address).emit
    (.memoryRead address)).setRegister .mbr) (p.get_withCell h)

/-- A fetch from another cell finds the same word. -/
theorem fetch_withCell {address : Nat} (h : address ≠ cell) :
    (p.withCell cell value).fetch address = (p.fetch address).withCell cell value := by
  unfold fetch
  dsimp only
  rw [p.get_withCell h, p.readCell_withCell h]
  have program : (p.withCell cell value).machine.program = p.machine.program := rfl
  rw [program]
  cases p.machine.program.lineAt? address with
  | some line => rfl
  | none => rfl

/-- A result depends on no cell. -/
theorem accept_withCell (op : Opcode) (address : Nat) (number : Int) :
    (p.withCell cell value).accept op address number =
      ((p.accept op address number).1.withCell cell value, (p.accept op address number).2) := by
  unfold accept
  split <;> rfl

/-- Arithmetic depends on no cell but that of its operand. -/
theorem arithmetic_withCell (op : Opcode) (combine : Int → Int → Int) (address : Nat) {operand : Nat}
    (h : operand ≠ cell) :
    (p.withCell cell value).arithmetic op combine address operand =
      ((p.arithmetic op combine address operand).1.withCell cell value,
        (p.arithmetic op combine address operand).2) := by
  unfold arithmetic
  rw [p.get_withCell h, p.readCell_withCell h]
  exact accept_withCell _ op address _

/-- `LOAD` depends on no cell but that of its operand. -/
theorem load_withCell {operand : Nat} (h : operand ≠ cell) :
    ((p.withCell cell value).readCell operand).setAc
        ((p.withCell cell value).machine.state.memory.get operand) =
      ((p.readCell operand).setAc (p.machine.state.memory.get operand)).withCell cell value := by
  rw [p.get_withCell h, p.readCell_withCell h]
  rfl

/-- A write to the cell makes it forget the other word. -/
theorem writeCell_withCell_self (word : Int) :
    (p.withCell cell value).writeCell cell word = p.writeCell cell word :=
  congrArg (fun memory => (⟨p.machine.setState { p.machine.state with memory := memory },
    (p.writeCell cell word).journal⟩ : Progress ι)) (p.machine.state.memory.set_set value word)

/-- A write to another cell leaves the other word where it is. -/
theorem writeCell_withCell {address : Nat} (h : address ≠ cell) (word : Int) :
    (p.withCell cell value).writeCell address word = (p.writeCell address word).withCell cell value :=
  congrArg (fun memory => (⟨p.machine.setState { p.machine.state with memory := memory },
    (p.writeCell address word).journal⟩ : Progress ι))
    (p.machine.state.memory.set_comm value word h.symm)

/-- A store may write the cell itself; it never looks at what the cell held. -/
theorem store_withCell (operand : Nat) :
    Spares cell value (p.store operand) ((p.withCell cell value).store operand) := by
  have ac : (p.withCell cell value).machine.state.ac = p.machine.state.ac := rfl
  unfold store
  dsimp only
  rw [ac]
  cases Memory.writeViolation? operand p.machine.state.ac with
  | some violation => exact .inr rfl
  | none =>
    by_cases same : operand = cell
    · subst same
      exact .inl (congrArg (·, Ending.proceeded) (writeCell_withCell_self
        ((p.setRegister .mar operand).setRegister .mbr p.machine.state.ac) _))
    · exact .inr (congrArg (·, Ending.proceeded) (writeCell_withCell
        ((p.setRegister .mar operand).setRegister .mbr p.machine.state.ac) same _))

/-- A branch depends on no cell. -/
theorem branch_withCell (operand : Nat) (taken : Prop) [Decidable taken] :
    (p.withCell cell value).branch operand taken = (p.branch operand taken).withCell cell value := by
  unfold branch
  split <;> rfl

variable [InputSource ι]

/-- `INPUT` depends on no cell. -/
theorem receive_withCell (address : Nat) :
    (p.withCell cell value).receive address =
      ((p.receive address).1.withCell cell value, (p.receive address).2) := by
  have request : InputSource.request (p.withCell cell value).machine.input =
      InputSource.request p.machine.input := rfl
  unfold receive
  rw [request]
  split
  · rfl
  · next number _ =>
    exact accept_withCell (p.ask.log .debug ("IN: read " ++ toString number)) .input address number

/-! ### A step that does not read the cell -/

/-- What was told stays told. -/
theorem Effects.reads {p q : Progress ι} (h : Effects p q) (reads : p.journal.Reads cell) :
    q.journal.Reads cell := by
  obtain ⟨added, hadded, -⟩ := Effects.events h
  rw [Journal.Reads, hadded]
  exact List.mem_append_left added reads

/-- An instruction that does not read the cell does the same, whatever the cell holds. -/
theorem execute_withCell (address : Nat) (i : Instruction)
    (unread : ¬ (p.execute address i).1.journal.Reads cell) :
    Spares cell value (p.execute address i) ((p.withCell cell value).execute address i) := by
  have ac : (p.withCell cell value).machine.state.ac = p.machine.state.ac := rfl
  unfold execute at unread ⊢
  cases op : i.opcode with
  | halt | nop | output => exact .inr rfl
  | add | sub =>
    rw [op] at unread
    have other : i.operand ≠ cell := by
      rintro rfl
      exact unread (by simp [Journal.Reads, events_arithmetic, Instruction.operandEvents])
    exact .inr (p.arithmetic_withCell _ _ address other)
  | store => exact p.store_withCell i.operand
  | load =>
    rw [op] at unread
    have other : i.operand ≠ cell := by
      rintro rfl
      exact unread (by simp [Journal.Reads])
    exact .inr (congrArg (·, Ending.proceeded) (p.load_withCell other))
  | branch => exact .inr (congrArg (·, Ending.proceeded) (p.branch_withCell i.operand True))
  | brz | brp =>
    dsimp only
    rw [ac]
    exact .inr (congrArg (·, Ending.proceeded) (p.branch_withCell i.operand _))
  | input => exact .inr (p.receive_withCell address)

omit [InputSource ι] in
/-- The end of a step depends on no cell. -/
theorem settle_withCell (ending : Ending) :
    (p.withCell cell value).settle ending =
      ⟨(p.settle ending).next.withCell cell value, (p.settle ending).journal,
        (p.settle ending).result⟩ := by
  cases ending with
  | proceeded | faulted _ | violated _ => rfl
  | halted reason => cases reason <;> rfl

end Progress

/-- A turn, and the same one with another word in a cell if the cell was not written since. -/
structure Turn.Spares {ι α : Type} (cell : Nat) (value : Int) (turn other : Turn (Machine ι) α) :
    Prop where
  next : other.next = turn.next ∨ other.next = turn.next.withCell cell value
  journal : other.journal = turn.journal
  result : other.result = turn.result

namespace Machine

variable {ι : Type} [InputSource ι] {m : Machine ι} {cell : Nat} (value : Int)

omit [InputSource ι] in
/-- The first part of a step depends on the cell that it fetches from alone. -/
theorem fetched_withCell (h : m.address ≠ cell) :
    (m.withCell cell value).fetched = m.fetched.withCell cell value :=
  Progress.fetch_withCell ⟨m, []⟩ h

/-- **An instruction that does not read the cell spares it.** `STORE` may write to it, and then both runs
agree. -/
theorem executed_withCell (h : m.address ≠ cell) {i : Instruction}
    (unread : ¬ (m.executed i).1.journal.Reads cell) :
    Progress.Spares cell value (m.executed i) ((m.withCell cell value).executed i) := by
  have here : (m.withCell cell value).executed i =
      ((m.fetched.announce m.address i).withCell cell value).execute m.address i := by
    unfold executed
    rw [fetched_withCell value h]
    rfl
  rw [here]
  exact Progress.execute_withCell _ m.address i unread

/-- A step that does not read the cell spares it. -/
theorem cycle_withCell (unread : ¬ m.cycle.1.journal.Reads cell) :
    Progress.Spares cell value m.cycle (m.withCell cell value).cycle := by
  cases inside : m.pastEnd with
  | true =>
    have there : (m.withCell cell value).pastEnd = true := inside
    rw [cycle_of_pastEnd inside, cycle_of_pastEnd there]
    exact .inr rfl
  | false =>
    have there : (m.withCell cell value).pastEnd = false := inside
    have address : m.address ≠ cell := by
      rintro rfl
      have fetch : m.fetched.journal.Reads m.address := by
        simp [Journal.Reads, events_fetched, fetchEvents]
      exact unread (Progress.Effects.reads (m.cycle_effects_of_inside inside) fetch)
    have word : (m.withCell cell value).word = m.word := Memory.get_set_of_ne _ address.symm value
    rw [cycle_of_inside there, word]
    rw [cycle_of_inside inside] at unread ⊢
    cases decoded : Instruction.decode? m.word with
    | none =>
      dsimp only
      rw [fetched_withCell value address]
      exact .inr rfl
    | some i =>
      rw [decoded] at unread
      have told : ¬ (m.executed i).1.journal.Reads cell := by
        dsimp only at unread
        split at unread <;> exact unread
      rcases executed_withCell value address told with same | other
      · dsimp only
        rw [same]
        exact .inl rfl
      · have pastEnd : ((m.executed i).1.withCell cell value).machine.pastEnd =
            (m.executed i).1.machine.pastEnd := rfl
        dsimp only
        rw [other, pastEnd]
        split
        · exact .inr rfl
        · exact .inr rfl

/-- **A step that does not read a cell is the same whatever the cell holds**, and leaves at most the other
word in it. -/
theorem step_withCell (unread : ¬ m.step.journal.Reads cell) :
    m.step.Spares cell value (m.withCell cell value).step := by
  cases stopped : m.isStopped with
  | true =>
    have there : (m.withCell cell value).isStopped = true := stopped
    rw [step_of_isStopped stopped, step_of_isStopped there]
    exact ⟨.inr rfl, rfl, rfl⟩
  | false =>
    have there : (m.withCell cell value).isStopped = false := stopped
    rw [step_of_not_isStopped stopped] at unread ⊢
    rw [step_of_not_isStopped there]
    have cycle : ¬ m.cycle.1.journal.Reads cell := by
      obtain ⟨q, hq, hjournal, -⟩ := Progress.settle_effects m.cycle.1 m.cycle.2
      rw [hjournal] at unread
      exact fun reads => unread (Progress.Effects.reads hq reads)
    rcases cycle_withCell value cycle with same | other
    · rw [same]
      exact ⟨.inl rfl, rfl, rfl⟩
    · rw [other, Progress.settle_withCell]
      exact ⟨.inr rfl, rfl, rfl⟩

/-- **So is any number of steps.** -/
theorem steps_withCell {count : Nat} (unread : ¬ (m.steps count).journal.Reads cell) :
    (m.steps count).Spares cell value ((m.withCell cell value).steps count) := by
  induction count generalizing m with
  | zero => exact ⟨.inr rfl, rfl, rfl⟩
  | succ count ih =>
    rw [steps_succ, Journal.reads_append, not_or] at unread
    obtain ⟨next, journal, result⟩ := step_withCell value unread.1
    rw [steps_succ, steps_succ, journal, result]
    rcases next with same | other
    · rw [same]
      exact ⟨.inl rfl, rfl, rfl⟩
    · have rest := ih unread.2
      rw [other, rest.journal, rest.result]
      exact ⟨rest.next, rfl, rfl⟩

/-- **After a write of the cell nothing is left of the other word.** -/
theorem next_steps_withCell {count : Nat} (unread : ¬ (m.steps count).journal.Reads cell)
    (written : (m.steps count).journal.Writes cell) :
    ((m.withCell cell value).steps count).next = (m.steps count).next := by
  have spared := steps_withCell value unread
  obtain ⟨word, told⟩ := written
  rcases spared.next with same | other
  · exact same
  · have state : ((m.withCell cell value).steps count).next.state = (m.steps count).next.state := by
      rw [← followAll_steps, ← followAll_steps, spared.journal]
      exact State.followAll_setCell _ value told
    rw [other] at state ⊢
    exact congrArg (Machine.setState _) state

end Machine

/-! ### Machines that differ in one cell -/

variable {ι κ : Type} [InputSource ι] [InputSource κ]

/-- Two machines that work alike, but for what they have in one cell. -/
structure Machine.AlikeBut (cell : Nat) (m : Machine ι) (n : Machine κ) : Prop where
  registers : m.state.registers = n.state.registers
  flags : m.state.flags = n.state.flags
  cells : ∀ other ≠ cell, m.state.memory.get other = n.state.memory.get other
  program : m.program = n.program
  stop : m.stop = n.stop
  input : InputSource.Alike m.input n.input

namespace Machine

variable {m : Machine ι} {n : Machine κ} {cell : Nat}

/-- Machines that are alike are alike but for any cell. -/
theorem Alike.alikeBut (h : m.Alike n) : m.AlikeBut cell n :=
  ⟨congrArg State.registers h.state, congrArg State.flags h.state,
    fun other _ => congrArg (·.memory.get other) h.state, h.program, h.stop, h.input⟩

namespace AlikeBut

/-- Either of two machines can be the first. -/
theorem symm (h : m.AlikeBut cell n) : n.AlikeBut cell m :=
  ⟨h.registers.symm, h.flags.symm, fun other ne => (h.cells other ne).symm, h.program.symm,
    h.stop.symm, fun count => (h.input count).symm⟩

/-- Another word in the cell does not matter. -/
theorem of_withCell {value : Int} (h : (m.withCell cell value).AlikeBut cell n) :
    m.AlikeBut cell n :=
  ⟨h.registers, h.flags,
    fun other ne => (Memory.get_set_of_ne _ (Ne.symm ne) value).symm.trans (h.cells other ne),
    h.program, h.stop, h.input⟩

/-- The other word is all that the one is missing. -/
theorem withCell (h : m.AlikeBut cell n) :
    (m.withCell cell (n.state.memory.get cell)).Alike n where
  state := by
    have memory := Memory.set_eq_of_forall_ne m.state.memory h.cells
    have state : m.state.setCell cell (n.state.memory.get cell) =
        ⟨n.state.registers, n.state.flags, n.state.memory⟩ := by
      rw [State.setCell, memory, h.registers, h.flags]
    exact state
  program := h.program
  stop := h.stop
  input := h.input

/-- While no step of the one reads the cell, the other takes the same steps. -/
theorem steps (h : m.AlikeBut cell n) {count : Nat}
    (unread : ¬ (m.steps count).journal.Reads cell) :
    (m.steps count).Alike (AlikeBut cell) (n.steps count) := by
  have spared := steps_withCell (n.state.memory.get cell) unread
  have alike := h.withCell.steps count
  refine ⟨?_, ?_, ?_⟩
  · rcases spared.next with same | other
    · rw [← same]
      exact alike.next.alikeBut
    · have next : AlikeBut cell _ _ := alike.next.alikeBut
      rw [other] at next
      exact next.of_withCell
  · rw [← alike.events, spared.journal]
  · rw [← alike.result, spared.result]

/-- Once a step wrote the cell, nothing is left of the difference. -/
theorem steps_of_writes (h : m.AlikeBut cell n) {count : Nat}
    (unread : ¬ (m.steps count).journal.Reads cell)
    (written : (m.steps count).journal.Writes cell) (more : Nat) :
    (m.steps (count + more)).Alike Machine.Alike (n.steps (count + more)) := by
  have first := h.steps unread
  have next : (m.steps count).next.Alike (n.steps count).next := by
    rw [← next_steps_withCell (n.state.memory.get cell) unread written]
    exact (h.withCell.steps count).next
  have rest := next.steps more
  rw [steps_add, steps_add]
  exact first.append rest (congrArg₂ (· ++ ·) first.result rest.result)

end AlikeBut

/-- Steps that do not read a cell are steps of which none does. -/
theorem unread_of_le {done count : Nat} (le : done ≤ count)
    (unread : ¬ (m.steps count).journal.Reads cell) : ¬ (m.steps done).journal.Reads cell := by
  obtain ⟨more, rfl⟩ := Nat.exists_eq_add_of_le le
  rw [steps_add, Journal.reads_append, not_or] at unread
  exact unread.1

/-- **Execution depends on a cell only where a read of it is told.** Two machines agree in everything but
what they have in one cell. Then, for any number of steps, the one tells a read of the cell exactly if the
other does. If they do not, their events and the results of their steps are the same, and after the steps they
agree in everything but the cell again. If one of the steps wrote the cell, they agree in everything from then
on, whatever is read later. -/
theorem steps_of_unread (h : m.AlikeBut cell n) (count : Nat) :
    ((m.steps count).journal.Reads cell ↔ (n.steps count).journal.Reads cell) ∧
      (¬ (m.steps count).journal.Reads cell →
        (m.steps count).Alike (AlikeBut cell) (n.steps count) ∧
        ∀ done ≤ count, (m.steps done).journal.Writes cell → ∀ more,
          (m.steps (done + more)).Alike Machine.Alike (n.steps (done + more))) := by
  refine ⟨⟨fun reads => ?_, fun reads => ?_⟩, fun unread => ⟨h.steps unread, ?_⟩⟩
  · refine Decidable.not_not.1 fun unread => unread ?_
    rw [Journal.Reads, (h.symm.steps unread).events]
    exact reads
  · refine Decidable.not_not.1 fun unread => unread ?_
    rw [Journal.Reads, (h.steps unread).events]
    exact reads
  · intro done le written more
    exact h.steps_of_writes (unread_of_le le unread) written more

/-- A machine with `IN; STORE 4; LOAD 4; OUT`, which keeps what it reads in the cell after the program. -/
def keeping (input : List Int) : Machine (List Int) :=
  ((new input).load (.ofWords [901, 304, 504, 902, 0])).next

/-- Whatever is in that cell, the number that was read is put out: the cell is written before it is read. -/
theorem steps_of_unread_keeping :
    (keeping [7]).AlikeBut 4 ((keeping [7]).withCell 4 42) ∧
      ¬ ((keeping [7]).steps 2).journal.Reads 4 ∧ ((keeping [7]).steps 2).journal.Writes 4 ∧
      .output 7 ∈ (((keeping [7]).withCell 4 42).steps 4).journal.events := by
  have same : ((keeping [7]).withCell 4 42).Alike ((keeping [7]).withCell 4 42) :=
    ⟨rfl, rfl, rfl, fun _ => rfl⟩
  have alike : (keeping [7]).AlikeBut 4 ((keeping [7]).withCell 4 42) := same.alikeBut.of_withCell
  have unread : ¬ ((keeping [7]).steps 2).journal.Reads 4 := by decide +kernel
  have written : ((keeping [7]).steps 2).journal.Writes 4 := ⟨7, by decide +kernel⟩
  have after := ((steps_of_unread alike 2).2 unread).2 2 Nat.le.refl written 2
  refine ⟨alike, unread, written, ?_⟩
  rw [← after.events]
  decide +kernel

end Machine
end DecimalMachine
