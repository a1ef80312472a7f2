/-
# Histories of operations

A machine is loaded, reset, stepped, run and given other input, in any order. `History` is a machine
after such operations, with the journal of its steps since it was last loaded or reset.

`Machine.Sound` is what holds throughout: the state is in range, a machine that can go on has its
counter within the program, and the flags are those of the accumulator. There is one exception to
the last: a load clears the accumulator and turns both flags off, so until an instruction sets the
accumulator the flags do not say that it is zero. No history of operations meets a violation, and
every one leaves a sound machine.
-/

import DecimalMachine.Proofs.Machine.Loaded

namespace DecimalMachine
namespace Machine

variable {ι : Type}

/-- What holds of a machine whatever was asked of it. The journal `recent` is the one of its steps
since it was last loaded or reset. -/
structure Sound (m : Machine ι) (recent : Journal) : Prop where
  inRange : m.state.InRange
  within : m.stop = none →
    m.state.pc < m.program.extent ∨ m.program.entries = [] ∧ m.state.pc = 0
  flags : m.state.flags = .ofAc m.state.ac ∨
    m.state.ac = 0 ∧ m.state.flags = .clear ∧ ¬ recent.WritesAc

/-- A new machine is sound. -/
theorem sound_new (input : ι) : (new input).Sound [] where
  inRange := State.inRange_zero
  within _ := .inr ⟨rfl, rfl⟩
  flags := .inr ⟨rfl, rfl, Journal.not_writesAc_nil⟩

/-- A machine is sound after a load of a program that fits. -/
theorem sound_load (m : Machine ι) {p : Program} (h : p.Loadable) : (m.load p).next.Sound [] := by
  rw [load_next m h]
  refine ⟨h.inRange, fun _ => ?_, .inr ⟨rfl, rfl, Journal.not_writesAc_nil⟩⟩
  rcases Nat.eq_zero_or_pos p.extent with none | some
  · exact .inr ⟨Program.entries_eq_nil_of_extent none, rfl⟩
  · exact .inl (Int.natCast_pos.2 some)

variable [InputSource ι] {m : Machine ι} {recent : Journal}

/-- A step keeps a machine sound. -/
theorem Sound.step (h : m.Sound recent) : m.step.next.Sound (recent ++ m.step.journal) where
  inRange := (inRange_step h.inRange).1
  within running := by
    obtain ⟨goesOn, hresult⟩ := step_result_of_inRange h.inRange
    cases goesOn with
    | false =>
      have stopped := isStopped_step hresult
      rw [isStopped, running] at stopped
      cases stopped
    | true =>
      have inside := (step_goesOn hresult).2
      simp only [pastEnd, Bool.or_eq_false_iff, decide_eq_false_iff_not] at inside
      exact .inl (Int.not_le.1 inside.2)
  flags := by
    rcases acFollowed_step m with followed | ⟨sameAc, sameFlags, quiet⟩
    · exact .inl followed
    · dsimp only at sameAc sameFlags quiet
      rw [sameAc, sameFlags, Journal.writesAc_append]
      rcases h.flags with followed | ⟨zero, clear, untold⟩
      · exact .inl followed
      · exact .inr ⟨zero, clear, not_or.2 ⟨untold, quiet⟩⟩

/-- Any number of steps keep a machine sound. -/
theorem Sound.steps (count : Nat) (h : m.Sound recent) :
    (m.steps count).next.Sound (recent ++ (m.steps count).journal) := by
  induction count generalizing m recent with
  | zero =>
    rw [Machine.steps, List.append_nil]
    exact h
  | succ count ih =>
    rw [steps_succ, ← List.append_assoc]
    exact ih h.step

/-! ### Operations -/

/-- What can be asked of a machine. -/
inductive Operation (ι : Type) where
  | load (p : Program)
  | reset
  | step
  /-- Steps until the machine stops, of which at most `limit` are taken. -/
  | run (limit : Nat)
  | setInput (input : ι)

/-- An operation that loads no program but one that fits. -/
def Operation.Loadable : Operation ι → Prop
  | load p => p.Loadable
  | reset | step | run _ | setInput _ => True

instance : (operation : Operation ι) → Decidable operation.Loadable
  | .load p => inferInstanceAs (Decidable p.Loadable)
  | .reset | .step | .run _ | .setInput _ => isTrue trivial

/-- A machine after operations. -/
structure History (ι : Type) where
  machine : Machine ι
  /-- What the steps since the last load or reset left. -/
  recent : Journal

/-- The violation that a result is, if any. -/
def violations {α : Type} : Except Violation α → List Violation
  | .ok _ => []
  | .error violation => [violation]

/-- The violation that ended a run, if any. -/
def RunEnd.violations : RunEnd → List Violation
  | .violated violation => [violation]
  | .stopped | .limit => []

namespace History

/-- A machine of which nothing was asked. -/
def new (input : ι) : History ι := ⟨.new input, []⟩

/-- Performs an operation. The result lists the violations. -/
def perform (h : History ι) : Operation ι → Turn (History ι) (List Violation)
  | .load p =>
    let turn := h.machine.load p
    ⟨⟨turn.next, []⟩, turn.journal, violations turn.result⟩
  | .reset => ⟨⟨h.machine.reset.next, []⟩, h.machine.reset.journal, []⟩
  | .step =>
    let turn := h.machine.step
    ⟨⟨turn.next, h.recent ++ turn.journal⟩, turn.journal, violations turn.result⟩
  | .run limit =>
    let run := h.machine.run limit
    ⟨⟨run.machine, h.recent ++ run.journal.toList⟩, run.journal.toList, run.ending.violations⟩
  | .setInput input => ⟨⟨h.machine.setInput input, h.recent⟩, [], []⟩

/-- Performs operations in order. -/
def performAll (h : History ι) : List (Operation ι) → Turn (History ι) (List Violation)
  | [] => ⟨h, [], []⟩
  | operation :: rest =>
    let first := h.perform operation
    let others := first.next.performAll rest
    ⟨others.next, first.journal ++ others.journal, first.result ++ others.result⟩

/-- Operations that made no mistake: no access to memory, and no number given to a register or a
cell, was out of range. -/
structure Flawless (turn : Turn (History ι) (List Violation)) : Prop where
  violations : turn.result = []
  events : ∀ e ∈ turn.journal.events, e.InRange
  sound : turn.next.machine.Sound turn.next.recent

/-! ### Each operation -/

omit [InputSource ι] in
/-- What a load or a reset tells first is in range. -/
theorem inRange_clearedJournal : ∀ e ∈ clearedJournal.events, e.InRange := by
  rw [clearedJournal, Journal.events_append, Journal.events_map_event, List.forall_mem_append]
  refine ⟨?_, by simp [Event.InRange]⟩
  rw [List.forall_mem_map]
  exact fun register _ => register.admits_zero

variable {h : History ι}

/-- A load of a program that fits is flawless. -/
theorem flawless_load {p : Program} (hp : p.Loadable) : Flawless (h.perform (.load p)) where
  violations := by rw [perform, load_result _ hp, Machine.violations]
  events := by
    rw [perform, events_load _ hp, List.forall_mem_append]
    constructor
    · simpa [clearedJournal] using inRange_clearedJournal
    · rw [List.forall_mem_map]
      exact hp
  sound := sound_load h.machine hp

/-- A reset is flawless. -/
theorem flawless_reset : Flawless (h.perform .reset) where
  violations := rfl
  events := inRange_clearedJournal
  sound := sound_new h.machine.input

/-- A step of a sound machine is flawless. -/
theorem flawless_step (sound : h.machine.Sound h.recent) : Flawless (h.perform .step) where
  violations := by
    obtain ⟨goesOn, hresult⟩ := step_result_of_inRange sound.inRange
    rw [perform, hresult, Machine.violations]
  events := (inRange_step sound.inRange).2
  sound := sound.step

/-- A run of a sound machine is flawless. -/
theorem flawless_run (sound : h.machine.Sound h.recent) (limit : Nat) :
    Flawless (h.perform (.run limit)) := by
  obtain ⟨count, hmachine, hjournal, hending⟩ := run_eq_steps limit h.machine
  obtain ⟨-, hevents, hresults⟩ := inRange_steps count sound.inRange
  refine ⟨?_, ?_, ?_⟩
  · cases ending : (h.machine.run limit).ending with
    | stopped | limit => rw [perform, ending, RunEnd.violations]
    | violated violation =>
      obtain ⟨goesOn, same⟩ := hresults _ (hending violation ending)
      cases same
  · rw [perform, hjournal]
    exact hevents
  · rw [perform, hjournal, hmachine]
    exact sound.steps count

/-- Another input source makes no difference. -/
theorem flawless_setInput (sound : h.machine.Sound h.recent) (input : ι) :
    Flawless (h.perform (.setInput input)) where
  violations := rfl
  events := nofun
  sound := ⟨sound.inRange, sound.within, sound.flags⟩

/-- **Every operation on a sound machine is flawless**, if it loads no program that does not fit. -/
theorem flawless_perform (sound : h.machine.Sound h.recent) {operation : Operation ι}
    (loadable : operation.Loadable) : Flawless (h.perform operation) := by
  cases operation with
  | load p => exact flawless_load loadable
  | reset => exact flawless_reset
  | step => exact flawless_step sound
  | run limit => exact flawless_run sound limit
  | setInput input => exact flawless_setInput sound input

/-- Any operations on a sound machine are flawless. -/
theorem flawless_of_sound (sound : h.machine.Sound h.recent) (operations : List (Operation ι))
    (loadable : ∀ operation ∈ operations, operation.Loadable) :
    Flawless (h.performAll operations) := by
  induction operations generalizing h with
  | nil => exact ⟨rfl, nofun, sound⟩
  | cons operation rest ih =>
    obtain ⟨hfirst, hrest⟩ := List.forall_mem_cons.1 loadable
    have first := flawless_perform sound hfirst
    have others := ih first.sound hrest
    refine ⟨?_, ?_, others.sound⟩
    · rw [performAll, first.violations, others.violations, List.append_nil]
    · rw [performAll, Journal.events_append, List.forall_mem_append]
      exact ⟨first.events, others.events⟩

/-- **No history of operations makes a mistake.** Whatever programs that fit are loaded into a new
machine, and however it is reset, stepped, run and given other input, there is no violation, every
access to memory names a cell, and the machine that is left is sound. -/
theorem flawless_performAll (input : ι) (operations : List (Operation ι))
    (loadable : ∀ operation ∈ operations, operation.Loadable) :
    Flawless ((new input).performAll operations) :=
  flawless_of_sound (sound_new input) operations loadable

/-- A program that reads a number, adds 5 and executes the sum: `502` is `LOAD 2`. -/
def sumExecuted : List (Operation (List Int)) :=
  [.load (.ofWords [901, 104, 303, 999, 5]), .setInput [497], .step, .run 10, .step]

/-- The sum is executed, and loads the word 303. -/
theorem flawless_sumExecuted :
    (∀ operation ∈ sumExecuted, operation.Loadable) ∧ Flawless ((new []).performAll sumExecuted) ∧
      ((new []).performAll sumExecuted).next.machine.state.ac = 303 :=
  ⟨by decide, flawless_performAll [] sumExecuted (by decide), by decide +kernel⟩

end History
end Machine
end DecimalMachine
