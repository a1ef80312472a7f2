/-
# What a step keeps

Three facts about one step, each an induction over its effects, and from them what a number of steps
keeps.

* The state and the events stay in range (`Effects.inRange`), so no step ends as a violation.
* The flags are those of the accumulator, or the step wrote neither (`Effects.acFollowed`).
* The program and, within a cycle, the stop are left alone (`Effects.frame`).

A step that goes on leaves a counter within the program; one that does not leaves a stop.
-/

import DecimalMachine.Proofs.Machine.Effect
import DecimalMachine.Machine.Run

namespace DecimalMachine

/-- An event of the journal tells that the accumulator was set. -/
def Journal.WritesAc (j : Journal) : Prop := ∃ value, .registerChanged .ac value ∈ j.events

/-- An empty journal writes nothing to the accumulator. -/
theorem Journal.not_writesAc_nil : ¬ Journal.WritesAc [] := by
  rintro ⟨value, member⟩
  cases member

/-- A journal writes to the accumulator if one of its parts does. -/
theorem Journal.writesAc_append {j k : Journal} :
    (j ++ k).WritesAc ↔ j.WritesAc ∨ k.WritesAc := by
  simp [WritesAc, exists_or]

namespace Progress

variable {ι : Type}

/-! ### What the effects add to the events of a journal -/

section Events

variable (p : Progress ι)

/-- A log record is no event. -/
@[simp] theorem events_log (level : Level) (message : String) :
    (p.log level message).journal.events = p.journal.events := by
  simp [log]

/-- An event is added behind the others. -/
@[simp] theorem events_emit (e : Event) :
    (p.emit e).journal.events = p.journal.events ++ [e] := by
  simp [emit]

/-- A register is told once. -/
@[simp] theorem events_setRegister (register : Register) (value : Int) :
    (p.setRegister register value).journal.events =
      p.journal.events ++ [.registerChanged register value] := by
  simp [setRegister]

/-- The accumulator is told together with its flags. -/
@[simp] theorem events_setAc (value : Int) :
    (p.setAc value).journal.events =
      p.journal.events ++ [.registerChanged .ac value, .flagsChanged (.ofAc value)] := by
  simp [setAc]

/-- A read is told between the address and the word that was found. -/
@[simp] theorem events_readCell (address : Nat) :
    (p.readCell address).journal.events =
      p.journal.events ++ [.registerChanged .mar address, .memoryRead address,
        .registerChanged .mbr (p.machine.state.memory.get address)] := by
  simp [readCell]

/-- A write is told once. -/
@[simp] theorem events_writeCell (address : Nat) (value : Int) :
    (p.writeCell address value).journal.events =
      p.journal.events ++ [.memoryWritten address value] := by
  simp [writeCell]

/-- A request is no event. -/
@[simp] theorem events_ask [InputSource ι] : p.ask.journal.events = p.journal.events := by
  simp [ask, InputSource.events_request]

end Events

variable [InputSource ι] {p q : Progress ι}

/-! ### Ranges -/

/-- The state and everything that became visible are in range. -/
structure InRange (p : Progress ι) : Prop where
  state : p.machine.state.InRange
  events : ∀ e ∈ p.journal.events, e.InRange

/-- **Every effect keeps state and events in range.** -/
theorem Effect.inRange (h : Effect p q) (hp : p.InRange) : q.InRange := by
  have events := hp.events
  cases h with
  | log level message => exact ⟨hp.state, by simpa using events⟩
  | @remark e h =>
    refine ⟨hp.state, ?_⟩
    rw [events_emit, List.forall_mem_append]
    refine ⟨events, ?_⟩
    cases e <;> first | exact absurd h not_false | simp [Event.InRange]
  | send =>
    refine ⟨hp.state, ?_⟩
    rw [events_emit, List.forall_mem_append]
    exact ⟨events, by simpa [Event.InRange] using hp.state.ac⟩
  | @read address h =>
    have hmar := Register.admits_mar h
    have hmbr : Register.mbr.Admits (p.machine.state.memory.get address) := hp.state.cells address
    have hread := (hp.state.setRegister hmar).setRegister hmbr
    refine ⟨hread, ?_⟩
    rw [events_readCell, List.forall_mem_append]
    exact ⟨events, by simpa [Event.InRange] using ⟨hmar, h, hmbr⟩⟩
  | setRegister register value _ bound =>
    refine ⟨hp.state.setRegister (bound hp.state), ?_⟩
    rw [events_setRegister, List.forall_mem_append]
    exact ⟨events, by simpa [Event.InRange] using bound hp.state⟩
  | @setAc value bound =>
    have hac : Register.ac.Admits value := bound hp.state
    refine ⟨(hp.state.setRegister hac).setFlags _, ?_⟩
    rw [events_setAc, List.forall_mem_append]
    exact ⟨events, by simpa [Event.InRange] using hac⟩
  | @write address value h bound =>
    refine ⟨hp.state.setCell h bound, ?_⟩
    rw [events_writeCell, List.forall_mem_append]
    exact ⟨events, by simpa [Event.InRange] using ⟨h, bound⟩⟩
  | ask => exact ⟨hp.state, by simpa using events⟩

/-- **Every chain of effects keeps state and events in range.** -/
theorem Effects.inRange (h : Effects p q) (hp : p.InRange) : q.InRange := by
  induction h with
  | refl => exact hp
  | tail _ effect ih => exact effect.inRange ih

/-! ### The accumulator and its flags -/

/-- The flags follow the accumulator, or neither was written since the state was `before`. -/
def AcFollowed (before : State) (p : Progress ι) : Prop :=
  p.machine.state.flags = .ofAc p.machine.state.ac ∨
    p.machine.state.ac = before.ac ∧ p.machine.state.flags = before.flags ∧ ¬ p.journal.WritesAc

omit [InputSource ι] in
/-- An effect that leaves the accumulator and the flags alone and tells of no change to the
accumulator. -/
theorem AcFollowed.of_eq {before : State} (hp : p.AcFollowed before)
    (hac : q.machine.state.ac = p.machine.state.ac)
    (hflags : q.machine.state.flags = p.machine.state.flags)
    (hjournal : q.journal.WritesAc → p.journal.WritesAc) : q.AcFollowed before := by
  unfold AcFollowed
  rw [hac, hflags]
  rcases hp with followed | ⟨same, sameFlags, quiet⟩
  · exact .inl followed
  · exact .inr ⟨same, sameFlags, mt hjournal quiet⟩

/-- **Every effect lets the flags follow the accumulator.** -/
theorem Effect.acFollowed {before : State} (h : Effect p q) (hp : p.AcFollowed before) :
    q.AcFollowed before := by
  cases h with
  | log level message => exact hp.of_eq rfl rfl (by simp [Journal.WritesAc])
  | @remark e h =>
    refine hp.of_eq rfl rfl ?_
    rintro ⟨value, member⟩
    refine ⟨value, ?_⟩
    rw [events_emit, List.mem_append, List.mem_singleton] at member
    rcases member with member | same
    · exact member
    · rw [← same] at h
      exact absurd h not_false
  | send => exact hp.of_eq rfl rfl (by simp [Journal.WritesAc])
  | read h => exact hp.of_eq rfl rfl (by simp [Journal.WritesAc])
  | setRegister register value h bound =>
    have hac : (p.setRegister register value).machine.state.ac = p.machine.state.ac := by
      cases register <;> first | exact absurd rfl h | rfl
    exact hp.of_eq hac rfl (by simp [Journal.WritesAc, Ne.symm h])
  | setAc => exact .inl rfl
  | write => exact hp.of_eq rfl rfl (by simp [Journal.WritesAc])
  | ask => exact hp.of_eq rfl rfl (by simp [Journal.WritesAc])

/-- Through every chain of effects the flags follow the accumulator. -/
theorem Effects.acFollowed {before : State} (h : Effects p q) (hp : p.AcFollowed before) :
    q.AcFollowed before := by
  induction h with
  | refl => exact hp
  | tail _ effect ih => exact effect.acFollowed ih

/-! ### What no effect touches -/

/-- No effect replaces the program or stops the machine. -/
theorem Effect.frame (h : Effect p q) :
    q.machine.program = p.machine.program ∧ q.machine.stop = p.machine.stop := by
  cases h <;> exact ⟨rfl, rfl⟩

/-- Neither does a chain of effects. -/
theorem Effects.frame (h : Effects p q) :
    q.machine.program = p.machine.program ∧ q.machine.stop = p.machine.stop := by
  induction h with
  | refl => exact ⟨rfl, rfl⟩
  | tail _ effect ih => exact ⟨effect.frame.1.trans ih.1, effect.frame.2.trans ih.2⟩

/-! ### Endings -/

omit [InputSource ι] in
/-- A result that is no word is a fault and not a violation. -/
theorem accept_ne_violated (p : Progress ι) (op : Opcode) (address : Nat) (value : Int)
    (violation : Violation) : (p.accept op address value).2 ≠ .violated violation := by
  unfold accept
  split <;> nofun

omit [InputSource ι] in
/-- A store of a word to an address is no violation. -/
theorem store_ne_violated {operand : Nat} (h : operand < memorySize)
    (hac : InWordRange p.machine.state.ac) (violation : Violation) :
    (p.store operand).2 ≠ .violated violation := by
  have allowed := Memory.writeViolation?_eq_none_iff.2 ⟨h, hac⟩
  unfold store
  dsimp only
  rw [allowed]
  nofun

/-- An answer that is no word is a fault and not a violation. -/
theorem receive_ne_violated (p : Progress ι) (address : Nat) (violation : Violation) :
    (p.receive address).2 ≠ .violated violation := by
  unfold receive
  split
  · nofun
  · exact accept_ne_violated _ _ _ _ violation

/-- Only an accumulator that is no word leads to a violation. -/
theorem execute_ne_violated (address : Nat) {i : Instruction} (h : i.operand < memorySize)
    (hac : InWordRange p.machine.state.ac) (violation : Violation) :
    (p.execute address i).2 ≠ .violated violation := by
  unfold execute
  cases i.opcode with
  | halt | nop | load | branch | brz | brp | output => nofun
  | add | sub => exact accept_ne_violated _ _ _ _ violation
  | store => exact store_ne_violated h hac violation
  | input => exact receive_ne_violated p address violation

omit [InputSource ι] in
/-- A step that is no violation tells whether it proceeded. -/
theorem settle_result (p : Progress ι) {ending : Ending}
    (h : ∀ violation, ending ≠ .violated violation) :
    (p.settle ending).result = .ok (decide (ending = .proceeded)) := by
  cases ending with
  | proceeded | halted | faulted => rfl
  | violated violation => exact absurd rfl (h violation)

omit [InputSource ι] in
/-- A step that did not proceed stopped the machine. -/
theorem isStopped_settle (p : Progress ι) {ending : Ending}
    (h : (p.settle ending).result = .ok false) : (p.settle ending).next.isStopped = true := by
  cases ending with
  | proceeded | violated => nomatch h
  | halted reason => cases reason <;> rfl
  | faulted fault => rfl

end Progress

namespace Machine

variable {ι : Type} [InputSource ι] {m : Machine ι}

/-! ### Cycles -/

/-- Only the end of a step stops the machine. -/
theorem stop_cycle (m : Machine ι) : m.cycle.1.machine.stop = m.stop :=
  m.cycle_effects.frame.2

/-- The machine is in range when an instruction is carried out. -/
theorem inRange_announced (h : m.state.InRange) (inside : m.pastEnd = false) (i : Instruction) :
    (m.fetched.announce m.address i).InRange := by
  have hannounced : Progress.Effects ⟨m, []⟩ (m.fetched.announce m.address i) :=
    (m.fetched_effects inside).trans (Progress.announce_effects _ _ i)
  exact hannounced.inRange ⟨h, nofun⟩

/-- An instruction that was fetched in range is no violation. -/
theorem executed_ne_violated (h : m.state.InRange) (inside : m.pastEnd = false) {i : Instruction}
    (decoded : Instruction.decode? m.word = some i) (violation : Violation) :
    (m.executed i).2 ≠ .violated violation :=
  Progress.execute_ne_violated m.address (Instruction.operand_lt_of_decode? decoded)
    (inRange_announced h inside i).state.ac violation

/-- **A step of a machine in range is no violation.** -/
theorem cycle_ne_violated (h : m.state.InRange) (violation : Violation) :
    m.cycle.2 ≠ .violated violation := by
  cases inside : m.pastEnd with
  | true =>
    rw [cycle_of_pastEnd inside]
    nofun
  | false =>
    rw [cycle_of_inside inside]
    split
    · nofun
    · next i decoded =>
      split
      · nofun
      · exact executed_ne_violated h inside decoded violation

/-- A cycle after which the machine goes on leaves a counter within the program. -/
theorem pastEnd_cycle (h : m.cycle.2 = .proceeded) : m.cycle.1.machine.pastEnd = false := by
  cases inside : m.pastEnd with
  | true =>
    rw [cycle_of_pastEnd inside] at h
    cases h
  | false =>
    rw [cycle_of_inside inside] at h ⊢
    split at h
    · cases h
    · split at h
      · cases h
      · next left =>
        rw [if_neg left]
        exact Bool.eq_false_iff.2 fun past => left ⟨h, past⟩

/-! ### Steps -/

/-- A stopped machine does nothing. -/
theorem step_of_isStopped (h : m.isStopped = true) : m.step = ⟨m, [], .ok false⟩ :=
  if_pos h

/-- A step is settled by how it ended. -/
theorem step_of_not_isStopped (h : m.isStopped = false) :
    m.step = m.cycle.1.settle m.cycle.2 :=
  if_neg (Bool.eq_false_iff.1 h)

/-- A step keeps the program. -/
theorem program_step (m : Machine ι) : m.step.next.program = m.program := by
  obtain ⟨q, hq, -, hnext⟩ := m.step_effects
  rw [hnext]
  exact hq.frame.1

/-- **A step keeps the ranges.** What it tells is in range too. -/
theorem inRange_step (h : m.state.InRange) :
    m.step.next.state.InRange ∧ ∀ e ∈ m.step.journal.events, e.InRange := by
  obtain ⟨q, hq, hjournal, hnext⟩ := m.step_effects
  have hrange := hq.inRange ⟨h, nofun⟩
  rw [hnext, hjournal]
  exact ⟨hrange.state, hrange.events⟩

/-- **A step makes no mistake** from a state that is in range. -/
theorem step_result_of_inRange (h : m.state.InRange) : ∃ goesOn, m.step.result = .ok goesOn := by
  cases stopped : m.isStopped with
  | true => exact ⟨false, by rw [step_of_isStopped stopped]⟩
  | false =>
    rw [step_of_not_isStopped stopped]
    exact ⟨_, Progress.settle_result _ (cycle_ne_violated h)⟩

/-- **A step keeps the flags with the accumulator**, or writes neither. -/
theorem acFollowed_step (m : Machine ι) :
    Progress.AcFollowed m.state ⟨m.step.next, m.step.journal⟩ := by
  obtain ⟨q, hq, hjournal, hnext⟩ := m.step_effects
  rw [hnext, hjournal]
  exact hq.acFollowed (.inr ⟨rfl, rfl, Journal.not_writesAc_nil⟩)

/-- A step that goes on leaves a machine that is not stopped, with a counter within the program. -/
theorem step_goesOn (h : m.step.result = .ok true) :
    m.step.next.stop = none ∧ m.step.next.pastEnd = false := by
  cases stopped : m.isStopped with
  | true =>
    rw [step_of_isStopped stopped] at h
    cases h
  | false =>
    rw [step_of_not_isStopped stopped] at h ⊢
    cases ending : m.cycle.2 with
    | proceeded =>
      refine ⟨?_, pastEnd_cycle ending⟩
      rw [Progress.settle, stop_cycle]
      exact Option.not_isSome_iff_eq_none.1 (Bool.eq_false_iff.1 stopped)
    | halted | faulted | violated =>
      rw [ending] at h
      cases h

/-- A step that does not go on leaves a machine that is stopped. -/
theorem isStopped_step (h : m.step.result = .ok false) : m.step.next.isStopped = true := by
  cases stopped : m.isStopped with
  | true =>
    rw [step_of_isStopped stopped]
    exact stopped
  | false =>
    rw [step_of_not_isStopped stopped] at h ⊢
    exact Progress.isStopped_settle _ h

end Machine
end DecimalMachine
