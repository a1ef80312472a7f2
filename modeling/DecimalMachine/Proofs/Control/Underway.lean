/-
# Runs, cycle by cycle

A run is the change to running, cycle after cycle, and, once it ends, the change back to ready unless the
machine stopped. `Controller.underway` is the run with a number of cycles done and `Controller.completed`
the run that ends after them, both without any listener: what a listener adds is only when the run ends.

| | run states told | run state | run flag |
| --- | --- | --- | --- |
| underway, machine not stopped | running | running | set |
| underway, machine stopped | running, that of the stop | that of the stop | set |
| completed, machine not stopped | running, ready | ready | clear |
| completed, machine stopped | running, that of the stop | that of the stop | clear |
-/

import DecimalMachine.Proofs.Control.Telling
import DecimalMachine.Proofs.Control.Transparency
import Mathlib.Tactic.ByContra

namespace DecimalMachine

/-- A machine that is not stopped has no stop. -/
theorem Machine.stop_eq_none {ι : Type} {m : Machine ι} (going : m.isStopped = false) :
    m.stop = none :=
  Option.not_isSome_iff_eq_none.1 (Bool.eq_false_iff.1 going)

namespace Controller

variable {ι : Type} [InputSource ι] {c : Controller ι}

/-! ### One cycle -/

/-- A step of the machine, counted if it fetches. -/
def stepped (c : Controller ι) : Turn (Controller ι) Unit :=
  let after := { c with machine := c.machine.step.next }
  let counted := if c.machine.pastEnd then ⟨after, [], ()⟩ else after.count
  ⟨counted.next, c.machine.step.journal ++ counted.journal, ()⟩

/-- A stopped machine has no cycle. -/
theorem cycle_of_isStopped (stopped : c.machine.isStopped = true) : c.cycle = ⟨c, [], .ok false⟩ :=
  if_pos stopped

/-- A cycle whose step is a violation leaves what the step left, and is not counted. -/
theorem cycle_of_error (going : c.machine.isStopped = false) {violation : Violation}
    (h : c.machine.step.result = .error violation) :
    c.cycle = ⟨{ c with machine := c.machine.step.next }, c.machine.step.journal, .error violation⟩ := by
  unfold cycle
  rw [going]
  dsimp only
  rw [h]
  rfl

/-- A cycle is a counted step, and the change of the run state if the step stops the machine. -/
theorem cycle_of_result (going : c.machine.isStopped = false) {goesOn : Bool}
    (h : c.machine.step.result = .ok goesOn) :
    c.cycle =
      if goesOn then ⟨c.stepped.next, c.stepped.journal, .ok true⟩
      else
        let stopped := c.stepped.next.enter (.ofStop c.stepped.next.machine.stop)
        ⟨stopped.next, c.stepped.journal ++ stopped.journal, .ok false⟩ := by
  unfold cycle
  rw [going]
  dsimp only
  rw [h]
  rfl

/-- A counted step makes of the machine what its step makes of it. -/
theorem machine_stepped (c : Controller ι) : c.stepped.next.machine = c.machine.step.next := by
  unfold stepped
  dsimp only
  split <;> rfl

/-- What a counted step leaves alone. -/
theorem frame_stepped (c : Controller ι) :
    c.stepped.next.running = c.running ∧ c.stepped.next.rate = c.rate ∧
      c.stepped.next.runState = c.runState := by
  unfold stepped
  dsimp only
  split <;> exact ⟨rfl, rfl, rfl⟩

/-- A counted step tells no run state, and the cycle that it counts. -/
theorem told_stepped (c : Controller ι) :
    c.stepped.journal.runStates = [] ∧ c.stepped.journal.Counts c.cycles c.stepped.next.cycles := by
  obtain ⟨hstates, hnumbers⟩ :=
    Journal.silent_of_machineEvents (Machine.machineEvents_step c.machine)
  have hstep : c.machine.step.journal.Counts c.cycles c.cycles := .of_silent hnumbers c.cycles
  unfold stepped
  dsimp only
  rw [Journal.runStates_append, hstates]
  split
  · exact ⟨rfl, hstep.append (.of_silent rfl c.cycles)⟩
  · exact ⟨rfl, hstep.append (.of_next rfl)⟩

/-- **A cycle after which the machine goes on** changes no run state. -/
theorem cycle_of_goesOn (range : c.machine.state.InRange) (going : c.machine.isStopped = false)
    (next : c.machine.step.next.isStopped = false) :
    c.cycle = ⟨c.stepped.next, c.stepped.journal, .ok true⟩ := by
  obtain ⟨goesOn, hresult⟩ := Machine.step_result_of_inRange range
  rw [cycle_of_result going hresult]
  cases goesOn with
  | true => rfl
  | false =>
    rw [Machine.isStopped_step hresult] at next
    cases next

/-- **A cycle that stops the machine** enters the run state of the stop. -/
theorem cycle_of_stops (range : c.machine.state.InRange) (going : c.machine.isStopped = false)
    (next : c.machine.step.next.isStopped = true) :
    c.cycle =
      ⟨{ c.stepped.next with runState := .settled c.machine.step.next.stop },
        c.stepped.journal ++ enterJournal c.runState (.settled c.machine.step.next.stop),
        .ok false⟩ := by
  obtain ⟨goesOn, hresult⟩ := Machine.step_result_of_inRange range
  obtain ⟨-, -, hstate⟩ := frame_stepped c
  rw [cycle_of_result going hresult]
  cases goesOn with
  | true =>
    rw [Machine.isStopped, (Machine.step_goesOn hresult).1] at next
    cases next
  | false =>
    have hstop : RunState.ofStop c.stepped.next.machine.stop =
        .settled c.machine.step.next.stop := by
      rw [machine_stepped, RunState.ofStop_of_isSome next]
    dsimp only [enter]
    rw [hstop, hstate]
    rfl

/-- What a cycle leaves alone, however it ends, and whether there is one. -/
theorem frame_cycle (c : Controller ι) :
    c.cycle.next.running = c.running ∧ c.cycle.next.rate = c.rate := by
  cases going : c.machine.isStopped with
  | true =>
    rw [cycle_of_isStopped going]
    exact ⟨rfl, rfl⟩
  | false =>
    obtain ⟨hrunning, hrate, -⟩ := frame_stepped c
    rcases result : c.machine.step.result with violation | _ | _
    · rw [cycle_of_error going result]
      exact ⟨rfl, rfl⟩
    · rw [cycle_of_result going result]
      exact ⟨hrunning, hrate⟩
    · rw [cycle_of_result going result]
      exact ⟨hrunning, hrate⟩

/-- A single step leaves the rate as it is. -/
theorem rate_singleStep (c : Controller ι) : c.singleStep.next.rate = c.rate := by
  unfold singleStep
  split
  · rfl
  · exact (frame_cycle c).2

/-- A cycle tells its number, if it has one. -/
theorem counts_cycle (range : c.machine.state.InRange) :
    c.cycle.journal.Counts c.cycles c.cycle.next.cycles := by
  obtain ⟨-, hcounts⟩ := told_stepped c
  cases going : c.machine.isStopped with
  | true =>
    rw [cycle_of_isStopped going]
    exact .of_silent rfl c.cycles
  | false =>
    cases next : c.machine.step.next.isStopped with
    | false =>
      rw [cycle_of_goesOn range going next]
      exact hcounts
    | true =>
      rw [cycle_of_stops range going next]
      exact hcounts.append (.of_silent rfl _)

/-- A cycle is a step, because a step of a stopped machine is none. -/
theorem cycle_follows_step (range : c.machine.state.InRange) :
    c.Follows 1 c.cycle.journal c.cycle.next := by
  have hcycle := cycle_follows range
  cases going : c.machine.isStopped with
  | false =>
    rw [cycleSteps, going] at hcycle
    exact hcycle
  | true =>
    have hstep : c.machine.step = ⟨c.machine, [], .ok false⟩ := Machine.step_of_isStopped going
    have hsteps : c.machine.steps 1 = ⟨c.machine, [], [.ok false]⟩ := by
      rw [Machine.steps_succ, hstep]
      rfl
    have hfetches : c.machine.fetchCount 1 = 0 := by
      rw [Machine.fetchCount, Machine.fetches_eq, going]
      rfl
    rw [cycle_of_isStopped going]
    refine ⟨?_, ?_, ?_⟩
    · rw [hsteps]
    · rw [hsteps]
      rfl
    · rw [hfetches]
      rfl

omit [InputSource ι] in
/-- The end of a run clears the run flag, and what it leaves alone. -/
theorem frame_finish (c : Controller ι) :
    c.finish.next.running = false ∧ c.finish.next.machine = c.machine ∧
      c.finish.next.rate = c.rate ∧ c.finish.next.cycles = c.cycles := by
  unfold finish
  split <;> exact ⟨rfl, rfl, rfl, rfl⟩

/-! ### A run underway -/

/-- A run of which a number of cycles are done. A stopped machine executes none. -/
def underway (c : Controller ι) : (count : Nat) → Turn (Controller ι) Unit
  | 0 => c.start
  | count + 1 =>
    let before := c.underway count
    let last := before.next.cycle
    ⟨last.next, before.journal ++ last.journal, ()⟩

/-- A run that ends after a number of cycles, and what it returns. -/
def completed (c : Controller ι) (count : Nat) : Turn (Controller ι) RunState :=
  let before := c.underway count
  let last := before.next.finish
  ⟨last.next, before.journal ++ last.journal, last.next.runState⟩

/-- A run with one cycle more is the run and its next cycle. -/
theorem underway_succ (c : Controller ι) (count : Nat) :
    c.underway (count + 1) =
      ⟨(c.underway count).next.cycle.next,
        (c.underway count).journal ++ (c.underway count).next.cycle.journal, ()⟩ := rfl

/-- A machine that is underway and not stopped was not stopped one cycle before. -/
theorem going_underway_of_succ {count : Nat}
    (going : (c.underway (count + 1)).next.machine.isStopped = false) :
    (c.underway count).next.machine.isStopped = false := by
  by_contra stopped
  rw [Bool.not_eq_false] at stopped
  rw [underway_succ, cycle_of_isStopped stopped, stopped] at going
  cases going

/-- Once its machine stopped, a run tells nothing more. -/
theorem underway_of_isStopped {count : Nat}
    (stopped : (c.underway count).next.machine.isStopped = true) (more : Nat) :
    (c.underway (count + more)).next = (c.underway count).next ∧
      (c.underway (count + more)).journal = (c.underway count).journal := by
  induction more with
  | zero => exact ⟨rfl, rfl⟩
  | succ more ih =>
    have hstopped : (c.underway (count + more)).next.machine.isStopped = true := by
      rw [ih.1]
      exact stopped
    rw [← Nat.add_assoc, underway_succ, cycle_of_isStopped hstopped, List.append_nil]
    exact ih

/-- Only a listener clears the run flag, and the rate stays. -/
theorem frame_underway (c : Controller ι) (count : Nat) :
    (c.underway count).next.running = true ∧ (c.underway count).next.rate = c.rate := by
  induction count with
  | zero => exact ⟨rfl, rfl⟩
  | succ count ih =>
    obtain ⟨hrunning, hrate⟩ := frame_cycle (c.underway count).next
    exact ⟨hrunning.trans ih.1, hrate.trans ih.2⟩

section Underway

variable (range : c.machine.state.InRange)

include range

/-- **Every cycle of a run is a step.** -/
theorem underway_follows (count : Nat) :
    c.Follows count (c.underway count).journal (c.underway count).next := by
  induction count with
  | zero => exact start_follows c
  | succ count ih => exact ih.trans (cycle_follows_step (ih.inRange range))

/-- The machine of a run is the one that as many steps make of it. -/
theorem machine_underway (count : Nat) :
    (c.underway count).next.machine = (c.machine.steps count).next :=
  (underway_follows range count).machine

/-- **Every cycle of a run that is complete is a step.** -/
theorem completed_follows (count : Nat) :
    c.Follows count (c.completed count).journal (c.completed count).next :=
  (underway_follows range count).trans (finish_follows _)

/-- A run keeps the state of its machine in range. -/
theorem inRange_underway (count : Nat) : (c.underway count).next.machine.state.InRange :=
  (underway_follows range count).inRange range

/-- **A run numbers its cycles**, beginning with the next one. -/
theorem counts_underway (count : Nat) :
    (c.underway count).journal.Counts c.cycles (c.underway count).next.cycles := by
  induction count with
  | zero => exact .of_silent rfl c.cycles
  | succ count ih => exact ih.append (counts_cycle (inRange_underway range count))

/-- A run that is complete numbers its cycles, and its end counts none. -/
theorem counts_completed (count : Nat) :
    (c.completed count).journal.Counts c.cycles (c.completed count).next.cycles := by
  obtain ⟨-, -, -, hcycles⟩ := frame_finish (c.underway count).next
  have hfinish : (c.underway count).next.finish.journal.cycleNumbers = [] := by
    unfold finish
    split <;> rfl
  unfold completed
  dsimp only
  rw [hcycles]
  exact (counts_underway range count).append (.of_silent hfinish _)

variable (going : c.machine.isStopped = false)

include going

/-- **What a run tells while it is underway**: that it is running, and how the machine stopped once it
did. -/
theorem runStates_underway (count : Nat) :
    (c.underway count).next.runState =
        (if (c.underway count).next.machine.isStopped then
          .settled (c.underway count).next.machine.stop else .running) ∧
      (c.underway count).journal.runStates =
        .running :: (if (c.underway count).next.machine.isStopped then
          [.settled (c.underway count).next.machine.stop] else []) := by
  induction count with
  | zero =>
    have hstart : (c.underway 0).next.machine.isStopped = false := going
    rw [hstart]
    exact ⟨rfl, rfl⟩
  | succ count ih =>
    have hrange := inRange_underway range count
    rw [underway_succ, Journal.runStates_append]
    dsimp only
    cases before : (c.underway count).next.machine.isStopped with
    | true =>
      rw [before] at ih
      rw [cycle_of_isStopped before, before]
      exact ⟨ih.1, by rw [ih.2]; rfl⟩
    | false =>
      rw [before] at ih
      obtain ⟨hstates, -⟩ := told_stepped (c.underway count).next
      obtain ⟨-, -, hstate⟩ := frame_stepped (c.underway count).next
      cases next : (c.underway count).next.machine.step.next.isStopped with
      | false =>
        rw [cycle_of_goesOn hrange before next]
        dsimp only
        rw [machine_stepped, next, hstates, hstate]
        exact ⟨ih.1, by rw [ih.2]; rfl⟩
      | true =>
        rw [cycle_of_stops hrange before next, Journal.runStates_append, hstates, ih.2]
        dsimp only
        rw [machine_stepped, next]
        exact ⟨rfl, rfl⟩

/-- **What a run tells once it is complete**: that it was running, and how the machine then stands. -/
theorem runStates_completed (count : Nat) :
    (c.completed count).result = .settled (c.underway count).next.machine.stop ∧
      (c.completed count).journal.runStates =
        [.running, .settled (c.underway count).next.machine.stop] := by
  obtain ⟨hstate, hstates⟩ := runStates_underway range going count
  unfold completed finish
  dsimp only
  rw [Journal.runStates_append, hstates, hstate]
  cases stopped : (c.underway count).next.machine.isStopped with
  | true =>
    have hsettled := RunState.settled_ne_running (c.underway count).next.machine.stop
    rw [if_pos rfl, if_pos rfl, if_neg hsettled]
    exact ⟨rfl, rfl⟩
  | false =>
    rw [Machine.stop_eq_none stopped]
    exact ⟨rfl, rfl⟩

end Underway

end Controller
end DecimalMachine
