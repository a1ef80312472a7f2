/-
# Controllers are transparent

A controller only decides when its machine takes a step. However a machine is run, paused and
stepped, it computes what it would compute alone by as many steps, and its events with those of the
controller left out are those of the steps.

`Follows` relates a controller to what it becomes by a number of steps of its machine. Each part of
a run follows, a chain of parts follows by the sum of their steps, and so does a list of calls.
-/

import DecimalMachine.Proofs.Control.Recording
import DecimalMachine.Proofs.Machine.Fetches

namespace DecimalMachine
namespace Controller

variable {ι σ : Type} [InputSource ι] {c d e : Controller ι}

/-- The controller `d` is what `c` became by `count` steps of its machine that left a journal, in
which the controller may have spoken too. -/
structure Follows (c : Controller ι) (count : Nat) (journal : Journal) (d : Controller ι) :
    Prop where
  machine : d.machine = (c.machine.steps count).next
  events : journal.machineEvents = (c.machine.steps count).journal.events
  cycles : d.cycles = c.cycles + c.machine.fetchCount count

namespace Follows

/-- A controller follows from itself by no step. -/
theorem refl (c : Controller ι) : c.Follows 0 [] c := ⟨rfl, rfl, rfl⟩

/-- Parts follow each other by the sum of their steps. -/
theorem trans {a b : Nat} {j k : Journal} (first : c.Follows a j d) (second : d.Follows b k e) :
    c.Follows (a + b) (j ++ k) e where
  machine := by rw [second.machine, first.machine, Machine.steps_add]
  events := by
    rw [Journal.machineEvents_append, first.events, second.events, first.machine,
      Machine.steps_add, Journal.events_append]
  cycles := by
    rw [second.cycles, first.cycles, first.machine, Machine.fetchCount_add, Nat.add_assoc]

/-- Steps keep the state in range. -/
theorem inRange {count : Nat} {journal : Journal} (h : c.Follows count journal d)
    (range : c.machine.state.InRange) : d.machine.state.InRange := by
  rw [h.machine]
  exact (Machine.inRange_steps count range).1

/-- Handing a journal to a listener is no step. -/
theorem announce {α : Type} {count : Nat} {turn : Turn (Controller ι) α}
    (h : c.Follows count turn.journal turn.next) (l : Listener σ) (s : σ) :
    c.Follows count turn.journal (announce l s turn).1 :=
  ⟨h.machine, h.events, h.cycles⟩

end Follows

/-! ### The parts of a run -/

/-- The number of steps that a cycle takes: none if the machine is stopped. -/
def cycleSteps (c : Controller ι) : Nat := if c.machine.isStopped then 0 else 1

/-- A step of the machine, counted if it fetches, after which only the controller spoke. -/
theorem step_follows (running : c.machine.isStopped = false) {rest : Journal}
    (machine : d.machine = c.machine.step.next)
    (cycles : d.cycles = c.cycles + (!c.machine.pastEnd).toNat) (quiet : rest.machineEvents = []) :
    c.Follows 1 (c.machine.step.journal ++ rest) d where
  machine := machine
  events := by
    rw [Journal.machineEvents_append, quiet, Machine.machineEvents_step, Machine.steps_succ,
      Journal.events_append]
    rfl
  cycles := by
    rw [cycles, Machine.fetchCount, Machine.fetches_eq, running]
    rfl

/-- **A cycle is at most one step.** -/
theorem cycle_follows (range : c.machine.state.InRange) :
    c.Follows c.cycleSteps c.cycle.journal c.cycle.next := by
  unfold cycleSteps cycle
  cases running : c.machine.isStopped with
  | true => exact Follows.refl c
  | false =>
    obtain ⟨goesOn, hresult⟩ := Machine.step_result_of_inRange range
    dsimp only
    rw [hresult]
    cases past : c.machine.pastEnd with
    | true =>
      have hcycles : c.cycles = c.cycles + (!c.machine.pastEnd).toNat := by rw [past]; rfl
      cases goesOn with
      | true => exact step_follows running rfl hcycles rfl
      | false =>
        dsimp only [Bool.false_eq_true, if_false, if_true]
        rw [List.append_assoc]
        exact step_follows running rfl hcycles rfl
    | false =>
      have hcycles : c.cycles + 1 = c.cycles + (!c.machine.pastEnd).toNat := by rw [past]; rfl
      cases goesOn with
      | true => exact step_follows running rfl hcycles rfl
      | false =>
        dsimp only [Bool.false_eq_true, if_false]
        rw [List.append_assoc]
        exact step_follows running rfl hcycles rfl

/-- The start of a run is no step. -/
theorem start_follows (c : Controller ι) : c.Follows 0 c.start.journal c.start.next :=
  ⟨rfl, rfl, rfl⟩

/-- The end of a run is no step. -/
theorem finish_follows (c : Controller ι) : c.Follows 0 c.finish.journal c.finish.next := by
  unfold finish
  split
  · exact ⟨rfl, rfl, rfl⟩
  · exact ⟨rfl, rfl, rfl⟩

/-! ### Runs -/

/-- The number of steps that a run takes once it was started. -/
def runFromSteps (l : Listener σ) : (limit : Nat) → Controller ι → σ → Nat
  | 0, _, _ => 0
  | limit + 1, c, s =>
    if c.running then
      let (next, heard) := announce l s c.cycle
      match c.cycle.result with
      | .ok true =>
        if Rate.hasDeadline next.rate then c.cycleSteps + runFromSteps l limit next heard
        else c.cycleSteps
      | .ok false | .error _ => c.cycleSteps
    else 0

/-- The number of steps that a run takes. -/
def runSteps (l : Listener σ) (limit : Nat) (c : Controller ι) (s : σ) : Nat :=
  if c.running then 0
  else if c.runState.isTerminal then 0
  else
    let (next, heard) := announce l s c.start
    if Rate.hasDuration next.rate then runFromSteps l limit next heard else 0

/-- A recorded run that went on from the journal `j` adds to it what its steps left. -/
def Records (c : Controller ι) (count : Nat) (j : Journal) (run : Run ι (σ × Journal)) : Prop :=
  ∃ rest, run.listener.2 = j ++ rest ∧ c.Follows count rest run.controller

/-- What comes before a recorded run belongs to it. -/
theorem Records.of_follows {a b : Nat} {j k : Journal} {run : Run ι (σ × Journal)}
    (first : c.Follows a k d) (others : d.Records b (j ++ k) run) : c.Records (a + b) j run := by
  obtain ⟨rest, hrest, hlast⟩ := others
  refine ⟨k ++ rest, ?_, first.trans hlast⟩
  rw [hrest, List.append_assoc]

variable (l : Listener σ)

/-- The end of a run adds no step to the record. -/
theorem conclude_records (c : Controller ι) (s : σ) (j : Journal) :
    c.Records 0 j (conclude l.recording c (s, j)) := by
  refine ⟨c.finish.journal, ?_, ?_⟩
  · unfold conclude
    rw [announce_recording]
  · exact (finish_follows c).announce _ _

/-- A run that was started adds to the record what its steps left. The induction is on the number of cycles
that the run may take. -/
theorem runFrom_records (limit : Nat) (range : c.machine.state.InRange) (s : σ) (j : Journal) :
    c.Records (runFromSteps l limit c s) j (runFrom l.recording limit c (s, j)) := by
  induction limit generalizing c s j with
  | zero =>
    unfold runFrom runFromSteps
    split
    · exact ⟨[], (List.append_nil j).symm, .refl c⟩
    · exact conclude_records l c s j
  | succ limit ih =>
    unfold runFrom runFromSteps
    split
    · have hcycle := (cycle_follows range).announce l s
      dsimp only
      rw [announce_recording]
      cases c.cycle.result with
      | error violation => exact ⟨_, rfl, hcycle⟩
      | ok goesOn =>
        cases goesOn with
        | false => exact .of_follows hcycle (conclude_records l _ _ _)
        | true =>
          dsimp only
          split
          · exact .of_follows hcycle (ih (hcycle.inRange range) _ _)
          · exact ⟨_, rfl, hcycle⟩
    · exact conclude_records l c s j

/-- **A run follows** by the steps that it takes, whenever its listener asks for a pause. -/
theorem run_records (limit : Nat) (range : c.machine.state.InRange) (s : σ) (j : Journal) :
    c.Records (runSteps l limit c s) j (run l.recording limit c (s, j)) := by
  unfold run runSteps
  split
  · rw [announce_recording]
    exact ⟨_, rfl, rfl, rfl, rfl⟩
  · split
    · exact ⟨[], (List.append_nil j).symm, .refl c⟩
    · have hstart := (start_follows c).announce l s
      rw [announce_recording]
      dsimp only
      split
      · have hrun := runFrom_records l limit (hstart.inRange range) (announce l s c.start).2
          (j ++ c.start.journal)
        rw [← Nat.zero_add (runFromSteps l limit _ _)]
        exact .of_follows hstart hrun
      · exact ⟨_, rfl, hstart⟩

end Controller
end DecimalMachine
