/-
# The events of controlled runs

The events of a controlled machine come in blocks, one for each step.

| the step | its block |
| --- | --- |
| finds the machine stopped | nothing |
| finds the counter outside the program | the warning, the change to halted |
| fetches and goes on | the events of the step, the cycle |
| fetches and stops | the events of the step, the cycle, the change to halted or errored |

A single step tells one block. A run tells the change to running, its blocks in order, and the change to
ready if the machine did not stop, with nothing else in between (`Controller.events_run`). This does not
depend on the rate: where no interval or no deadline can be computed from it, the run ends after a whole
number of blocks all the same.
-/

import DecimalMachine.Proofs.Control.History
import DecimalMachine.Proofs.Machine.Block

namespace DecimalMachine

namespace Machine

variable {ι : Type}

/-- The event of the change of the run state after a step that stopped the machine. -/
def stopEvents (m : Machine ι) : List Event :=
  match m.stop with
  | none => []
  | some (.halted _) => [.runStateChanged .halted]
  | some (.errored _) => [.runStateChanged .errored]

/-- The change after a step that stopped the machine tells how it stopped. -/
theorem stopEvents_of_isStopped {m : Machine ι} (h : m.isStopped = true) :
    m.stopEvents = [.runStateChanged (.settled m.stop)] := by
  unfold stopEvents
  unfold isStopped at h
  cases stop : m.stop with
  | none =>
    rw [stop] at h
    cases h
  | some reason => cases reason <;> rfl

/-- Control is within the program exactly if the counter is less than its extent. -/
theorem pastEnd_eq_false_iff {m : Machine ι} (range : m.state.InRange) :
    m.pastEnd = false ↔ m.state.pc < m.program.extent := by
  obtain ⟨nonneg, -⟩ : Register.pc.Admits m.state.pc := range.registers .pc
  unfold pastEnd
  rw [Bool.or_eq_false_iff, decide_eq_false_iff_not, decide_eq_false_iff_not]
  omega

variable [InputSource ι]

/-- The events of the next step of a controlled machine of which `cycles` cycles are counted. -/
def block (m : Machine ι) (cycles : Nat) : List Event :=
  if m.isStopped then []
  else if m.state.pc < m.program.extent then
    m.fetchEvents ++ m.lineEvents ++ m.instructionEvents ++ m.step.next.endingEvents
      ++ [.cycleAdvanced (cycles + 1)] ++ m.step.next.stopEvents
  else [.notice .warning (Progress.ranOffEndMessage m.state.pc), .runStateChanged .halted]

/-- The events of the next `count` steps of a controlled machine. -/
def blocks : (count : Nat) → Machine ι → (cycles : Nat) → List Event
  | 0, _, _ => []
  | count + 1, m, cycles =>
    m.block cycles ++ blocks count m.step.next (cycles + m.fetches.toNat)

/-- One step tells one block. -/
theorem blocks_one (m : Machine ι) (cycles : Nat) : m.blocks 1 cycles = m.block cycles :=
  List.append_nil _

/-- The blocks of a number of steps are those of the first of them and those of the others, counted on. -/
theorem blocks_add (a b : Nat) (m : Machine ι) (cycles : Nat) :
    m.blocks (a + b) cycles =
      m.blocks a cycles ++ (m.steps a).next.blocks b (cycles + m.fetchCount a) := by
  induction a generalizing m cycles with
  | zero =>
    rw [Nat.zero_add]
    rfl
  | succ a ih =>
    rw [Nat.succ_add, blocks, blocks, ih, List.append_assoc, fetchCount, Nat.add_assoc]
    rfl

/-- A step that finds control outside the program halts the machine. -/
theorem step_of_pastEnd {m : Machine ι} (going : m.isStopped = false) (outside : m.pastEnd = true) :
    m.step.next.stop = some (.halted .ranOffEnd) ∧
      m.step.journal.events = [.notice .warning (Progress.ranOffEndMessage m.state.pc)] := by
  rw [step_of_not_isStopped going, cycle_of_pastEnd outside]
  exact ⟨rfl, rfl⟩

/-- After its announcement an instruction tells nothing but its own actions. -/
theorem isAction_tail_instructionEvents (m : Machine ι) :
    ∀ e ∈ m.instructionEvents.tail, e.isAction = true := by
  unfold instructionEvents
  split
  · exact nofun
  · next i decoded => exact Instruction.isAction_ownEvents i _ _ _

end Machine

namespace Controller

/-- The event that closes a run which returned ready. -/
def RunEnding.closingEvents : RunEnding → List Event
  | returned .ready => [.runStateChanged .ready]
  | returned _ | violated _ | unfinished => []

variable {ι σ : Type} [InputSource ι] {c d : Controller ι}

/-! ### One cycle -/

/-- A counted step tells what the step tells, and its cycle unless control was past the end. -/
theorem events_stepped (c : Controller ι) :
    c.stepped.journal.events =
      c.machine.step.journal.events ++
        if c.machine.pastEnd then [] else [.cycleAdvanced (c.cycles + 1)] := by
  unfold stepped
  dsimp only
  rw [Journal.events_append]
  split <;> rfl

/-- **A cycle tells the block of its step.** -/
theorem events_cycle (range : c.machine.state.InRange) :
    c.cycle.journal.events = c.machine.block c.cycles := by
  unfold Machine.block
  cases going : c.machine.isStopped with
  | true =>
    rw [cycle_of_isStopped going]
    rfl
  | false =>
    have hstepped := events_stepped c
    have hcycle : c.cycle.journal.events = c.stepped.journal.events ++ c.machine.step.next.stopEvents := by
      cases next : c.machine.step.next.isStopped with
      | false =>
        have hstop : c.machine.step.next.stopEvents = [] := by
          rw [Machine.stopEvents, Machine.stop_eq_none next]
        rw [cycle_of_goesOn range going next, hstop, List.append_nil]
      | true =>
        rw [cycle_of_stops range going next, Machine.stopEvents_of_isStopped next]
        exact Journal.events_append _ _
    cases past : c.machine.pastEnd with
    | false =>
      have inside := (Machine.pastEnd_eq_false_iff range).1 past
      have hstep := Machine.events_step range going past
      rw [past] at hstepped
      rw [hcycle, hstepped, hstep, if_pos inside]
      rfl
    | true =>
      have outside : ¬ c.machine.state.pc < c.machine.program.extent := by
        rw [← Machine.pastEnd_eq_false_iff range, past]
        exact Bool.noConfusion
      obtain ⟨hstop, hstep⟩ := Machine.step_of_pastEnd going past
      rw [past] at hstepped
      rw [hcycle, hstepped, hstep, if_neg outside, Machine.stopEvents, hstop]
      rfl

/-- A cycle tells as many blocks as it takes steps. -/
theorem events_cycle_eq_blocks (range : c.machine.state.InRange) :
    c.cycle.journal.events = c.machine.blocks c.cycleSteps c.cycles := by
  rw [events_cycle range]
  unfold cycleSteps
  cases stopped : c.machine.isStopped with
  | true =>
    rw [Machine.block, stopped]
    rfl
  | false => exact (Machine.blocks_one c.machine c.cycles).symm

/-- A cycle leads back to ready from no other run state. -/
theorem runState_cycle_ne_ready (range : c.machine.state.InRange) (notReady : c.runState ≠ .ready) :
    c.cycle.next.runState ≠ .ready := by
  cases going : c.machine.isStopped with
  | true =>
    rw [cycle_of_isStopped going]
    exact notReady
  | false =>
    cases next : c.machine.step.next.isStopped with
    | false =>
      obtain ⟨-, -, hstate⟩ := frame_stepped c
      rw [cycle_of_goesOn range going next]
      rwa [← hstate] at notReady
    | true =>
      rw [cycle_of_stops range going next]
      dsimp only
      rw [Ne, RunState.settled_eq_ready_iff]
      intro none
      rw [Machine.isStopped, none] at next
      cases next

/-! ### Runs -/

/-- A recorded run that went on from the journal `j` adds to it `count` blocks and the event that closes
it. -/
def Tells (c : Controller ι) (count : Nat) (j : Journal) (run : Run ι (σ × Journal)) : Prop :=
  ∃ rest, run.listener.2 = j ++ rest ∧
    rest.events = c.machine.blocks count c.cycles ++ run.ending.closingEvents

/-- The blocks of a recorded run come after those before it. -/
theorem Tells.of_follows {a b : Nat} {j k : Journal} {run : Run ι (σ × Journal)}
    (first : c.Follows a k d) (told : k.events = c.machine.blocks a c.cycles)
    (others : d.Tells b (j ++ k) run) : c.Tells (a + b) j run := by
  obtain ⟨rest, hrest, hevents⟩ := others
  refine ⟨k ++ rest, ?_, ?_⟩
  · rw [hrest, List.append_assoc]
  · rw [Journal.events_append, told, hevents, first.machine, first.cycles, Machine.blocks_add,
      List.append_assoc]

variable (l : Listener σ)

omit [InputSource ι] in
/-- The end of a run tells whether it is ready again. -/
theorem events_finish (notReady : c.runState ≠ .ready) :
    c.finish.journal.events = (RunEnding.returned c.finish.next.runState).closingEvents := by
  unfold finish
  by_cases running : c.runState = .running
  · rw [if_pos running]
    rfl
  · rw [if_neg running]
    dsimp only
    cases state : c.runState with
    | ready => exact absurd state notReady
    | running => exact absurd state running
    | halted | errored => rfl

/-- The end of a run adds no block, only the event that closes the run. -/
theorem conclude_tells (notReady : c.runState ≠ .ready) (s : σ) (j : Journal) :
    c.Tells 0 j (conclude l.recording c (s, j)) := by
  refine ⟨c.finish.journal, ?_, ?_⟩
  · unfold conclude
    rw [announce_recording]
  · exact events_finish notReady

/-- A run that was started tells the blocks of its steps and the event that closes it. -/
theorem runFrom_tells (limit : Nat) (range : c.machine.state.InRange) (notReady : c.runState ≠ .ready)
    (s : σ) (j : Journal) :
    c.Tells (runFromSteps l limit c s) j (runFrom l.recording limit c (s, j)) := by
  -- While the run is underway its run state is not ready, so that it tells of ready only where it ends.
  induction limit generalizing c s j with
  | zero =>
    unfold runFrom runFromSteps
    split
    · exact ⟨[], (List.append_nil j).symm, rfl⟩
    · exact conclude_tells l notReady s j
  | succ limit ih =>
    unfold runFrom runFromSteps
    split
    · have hcycle := (cycle_follows range).announce l s
      have htold := events_cycle_eq_blocks range
      have hstate : (announce l s c.cycle).1.runState ≠ .ready := runState_cycle_ne_ready range notReady
      have hends (violation : Violation) : c.Tells c.cycleSteps j
          ⟨(announce l s c.cycle).1, ((announce l s c.cycle).2, j ++ c.cycle.journal),
            .violated violation⟩ :=
        ⟨_, rfl, htold.trans (List.append_nil _).symm⟩
      dsimp only
      rw [announce_recording]
      cases c.cycle.result with
      | error violation => exact hends violation
      | ok goesOn =>
        cases goesOn with
        | false => exact .of_follows hcycle htold (conclude_tells l hstate _ _)
        | true =>
          dsimp only
          split
          · exact .of_follows hcycle htold (ih (hcycle.inRange range) hstate _ _)
          · exact hends .deadlineTooLate
    · exact conclude_tells l notReady s j

/-- **What a run tells**: the change to running, a block for each of its steps, and the event that closes
it. -/
theorem events_run (range : c.machine.state.InRange) (limit : Nat) (s : σ) :
    (c.runJournal l limit s).events =
      if c.running || c.runState.isTerminal then []
      else
        .runStateChanged .running ::
          (c.machine.blocks (runSteps l limit c s) c.cycles
            ++ (c.run l limit s).ending.closingEvents) := by
  have hsame : (c.run l.recording limit (s, [])).ending = (c.run l limit s).ending :=
    congrArg Run.ending (run_recording l s [] limit c)
  rw [← hsame]
  unfold runJournal run runSteps
  cases running : c.running with
  | true =>
    rw [if_pos rfl, announce_recording]
    rfl
  | false =>
    cases terminal : c.runState.isTerminal with
    | true => rfl
    | false =>
      simp only [Bool.false_eq_true, if_false, Bool.or_false]
      rw [announce_recording]
      split
      · have notReady : (announce l s c.start).1.runState ≠ .ready := RunState.noConfusion
        have hrange : (announce l s c.start).1.machine.state.InRange := range
        obtain ⟨rest, hrest, htold⟩ := runFrom_tells l limit hrange notReady (announce l s c.start).2
          ([] ++ c.start.journal)
        rw [hrest, Journal.events_append, htold]
        rfl
      · rfl

/-! ### Reachable controllers -/

namespace History

/-- **The events of every single step and of every run**, of any controller that was loaded, reset, stepped,
run, paused and given any rates before.

A single step tells the block of its step. A run tells the change to running, one block for each step that
it takes, and the change to ready if it returns so. The blocks are those of the program that was loaded,
whatever its instructions store, and an instruction tells nothing after its announcement but what it does
to registers, cells and flags, or puts out. -/
theorem events_controlled (input : ι) (s : σ) (operations : List (Operation σ))
    (loadable : ∀ operation ∈ operations, operation.Loadable) :
    let c := ((new input s).performAll l operations).controller
    (c.singleStep.journal.events = if c.running then [] else c.machine.block c.cycles) ∧
      (∀ (limit : Nat) (t : σ),
        c.Follows (runSteps l limit c t) (c.runJournal l limit t) (c.run l limit t).controller ∧
          (c.runJournal l limit t).events =
            if c.running || c.runState.isTerminal then []
            else
              .runStateChanged .running ::
                (c.machine.blocks (runSteps l limit c t) c.cycles
                  ++ (c.run l limit t).ending.closingEvents)) ∧
      ∀ count, (c.machine.steps count).next.program = c.machine.program ∧
        ∀ e ∈ (c.machine.steps count).next.instructionEvents.tail, e.isAction = true := by
  intro c
  have range : c.machine.state.InRange := inRange_performAll State.inRange_zero loadable
  refine ⟨?_, fun limit t => ?_, fun count => ?_⟩
  · unfold singleStep
    split
    · rfl
    · exact events_cycle range
  · exact ⟨run_follows l t limit range, events_run l range limit t⟩
  · exact ⟨Machine.program_steps count c.machine, Machine.isAction_tail_instructionEvents _⟩

/-- A program that stores the number it reads over its last word is loaded and reads. -/
def overwritten : List (Operation Unit) := [.load (.ofWords [901, 302, 0]), .setRate 2.5, .singleStep]

/-- These calls, with a listener that asks for nothing, where the number is 903. -/
def overwrittenOnce : History (List Int) Unit :=
  (new [903] ()).performAll (.silent fun _ _ => ()) overwritten

/-- The stored word comes from the line of the word that it replaced, and it stands for no instruction. -/
theorem events_controlled_overwritten :
    (∀ operation ∈ overwritten, operation.Loadable) ∧
      (overwrittenOnce.controller.runJournal (.silent fun _ _ => ()) 5 ()).events =
        [.runStateChanged .running,
          .registerChanged .mar 1, .memoryRead 1, .registerChanged .mbr 302, .registerChanged .ir 302,
          .registerChanged .pc 2, .lineExecuted 2, .notice .info "01: STORE 2",
          .registerChanged .mar 2, .registerChanged .mbr 903, .memoryWritten 2 903,
          .cycleAdvanced 2,
          .registerChanged .mar 2, .memoryRead 2, .registerChanged .mbr 903, .registerChanged .ir 903,
          .registerChanged .pc 3, .lineExecuted 3,
          .notice .error "unknown opcode in word 903 at address 02",
          .cycleAdvanced 3, .runStateChanged .errored] := by
  have loadable : ∀ operation ∈ overwritten, operation.Loadable := by decide +kernel
  obtain ⟨-, hrun, -⟩ :=
    events_controlled (.silent fun _ _ => ()) ([903] : List Int) () overwritten loadable
  obtain ⟨-, hevents⟩ := hrun 5 ()
  refine ⟨loadable, ?_⟩
  rw [overwrittenOnce, hevents]
  decide +kernel

end History
end Controller
end DecimalMachine
