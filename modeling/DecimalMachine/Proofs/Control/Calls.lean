/-
# Calls

A controller is asked to run, to take a single step, to pause, or to change its rate, any number of
times and in any order, and each run has a listener of its own. `Controller.performAll` is what the
calls make of the controller, with the journal of all of them, and `Controller.stepCount` the number
of steps that they take together.
-/

import DecimalMachine.Proofs.Control.Transparency

namespace DecimalMachine
namespace Controller

variable {ι σ : Type} [InputSource ι] {c : Controller ι}

/-- What can be asked of a controller of a loaded machine. -/
inductive Call (σ : Type) where
  /-- Runs for at most `limit` cycles; the listener starts in the state `s`. -/
  | run (l : Listener σ) (s : σ) (limit : Nat)
  | singleStep
  | pause
  | setRate (rate : Float)

/-- Does what a call asks for, and records what becomes visible. A call that is refused changes
nothing. -/
def perform (c : Controller ι) : Call σ → Turn (Controller ι) Unit
  | .run l s limit =>
    ⟨(c.run l limit s).controller, (c.run l.recording limit (s, [])).listener.2, ()⟩
  | .singleStep => ⟨c.singleStep.next, c.singleStep.journal, ()⟩
  | .pause => ⟨c.pause, [], ()⟩
  | .setRate rate =>
    match c.setRate rate with
    | .ok next => ⟨next, [], ()⟩
    | .error _ => ⟨c, [], ()⟩

/-- Performs calls in order. -/
def performAll (c : Controller ι) : List (Call σ) → Turn (Controller ι) Unit
  | [] => ⟨c, [], ()⟩
  | call :: rest =>
    let first := c.perform call
    let others := first.next.performAll rest
    ⟨others.next, first.journal ++ others.journal, ()⟩

/-- The number of steps that a call takes. -/
def callSteps (c : Controller ι) : Call σ → Nat
  | .run l s limit => runSteps l limit c s
  | .singleStep => if c.running then 0 else c.cycleSteps
  | .pause | .setRate _ => 0

/-- The number of steps that calls take together. -/
def stepCount (c : Controller ι) : List (Call σ) → Nat
  | [] => 0
  | call :: rest => c.callSteps call + (c.perform call).next.stepCount rest

/-- A run follows by the steps that it takes. -/
theorem run_follows (l : Listener σ) (s : σ) (limit : Nat) (range : c.machine.state.InRange) :
    c.Follows (c.callSteps (.run l s limit)) (c.perform (.run l s limit)).journal
      (c.perform (.run l s limit)).next := by
  obtain ⟨rest, hrest, hfollows⟩ := run_records l limit range s []
  have hsame : (c.run l.recording limit (s, [])).controller = (c.run l limit s).controller :=
    congrArg Run.controller (run_recording l s [] limit c)
  have hjournal : (c.perform (.run l s limit)).journal = rest := hrest
  rw [hjournal]
  rw [hsame] at hfollows
  exact hfollows

/-- A single step follows by one step, or by none if it is refused or finds the machine stopped. -/
theorem singleStep_follows (range : c.machine.state.InRange) :
    c.Follows (c.callSteps (.singleStep : Call σ)) c.singleStep.journal c.singleStep.next := by
  unfold callSteps singleStep
  dsimp only
  split
  · exact .refl c
  · exact cycle_follows range

/-- A change of the rate is no step. -/
theorem setRate_follows (rate : Float) :
    c.Follows 0 (c.perform (.setRate rate : Call σ)).journal
      (c.perform (.setRate rate : Call σ)).next := by
  unfold perform setRate
  dsimp only
  split
  · next next accepted =>
    split at accepted
    · cases accepted
      exact ⟨rfl, rfl, rfl⟩
    · cases accepted
  · exact .refl c

/-- **Every call follows** by the steps that it takes. -/
theorem perform_follows (range : c.machine.state.InRange) (call : Call σ) :
    c.Follows (c.callSteps call) (c.perform call).journal (c.perform call).next := by
  cases call with
  | run l s limit => exact run_follows l s limit range
  | singleStep => exact singleStep_follows range
  | pause => exact ⟨rfl, rfl, rfl⟩
  | setRate rate => exact setRate_follows rate

/-- **So do any calls in order**, by the steps that they take together. -/
theorem performAll_follows (range : c.machine.state.InRange) (calls : List (Call σ)) :
    c.Follows (c.stepCount calls) (c.performAll calls).journal (c.performAll calls).next := by
  induction calls generalizing c with
  | nil => exact .refl c
  | cons call rest ih =>
    have hfirst := perform_follows range call
    exact hfirst.trans (ih (hfirst.inRange range))

/-! ### From a load on -/

omit [InputSource ι] in
/-- An idle controller hands a program that fits on to its machine. -/
theorem load_of_loadable (idle : c.running = false) {p : Program} (h : p.Loadable) :
    c.load p =
      ⟨{ c with machine := (c.machine.load p).next, cycles := 0, runState := .ready },
        (c.machine.load p).journal ++ enterJournal c.runState .ready, .ok ()⟩ := by
  unfold load
  dsimp only
  rw [if_neg (Bool.eq_false_iff.1 idle), c.machine.load_result h]
  rfl

omit [InputSource ι] in
/-- An idle controller has its machine cleared. -/
theorem reset_of_idle (idle : c.running = false) :
    c.reset =
      ⟨{ c with machine := c.machine.cleared, cycles := 0, runState := .ready },
        Machine.clearedJournal ++ enterJournal c.runState .ready, .ok ()⟩ :=
  if_neg (Bool.eq_false_iff.1 idle)

/-- A single step of an idle controller is a cycle. -/
theorem singleStep_of_idle (idle : c.running = false) :
    c.singleStep = ⟨c.cycle.next, c.cycle.journal, c.cycle.result.mapError .violated⟩ :=
  if_neg (Bool.eq_false_iff.1 idle)

omit [InputSource ι] in
/-- Of a load only the change of the run state is not told by the machine. -/
theorem machineEvents_load (idle : c.running = false) {p : Program} (h : p.Loadable) :
    (c.load p).journal.machineEvents = (c.machine.load p).journal.events := by
  have hentered : (enterJournal c.runState .ready).machineEvents = [] := rfl
  rw [load_of_loadable idle h, Journal.machineEvents_append, hentered, List.append_nil,
    Machine.machineEvents_load _ h]

omit [InputSource ι] in
/-- Two machines with the same input are alike after a load. -/
theorem machine_load (idle : c.running = false) {bare : Machine ι}
    (same : bare.input = c.machine.input) {p : Program} (h : p.Loadable) :
    (c.load p).next.machine = (bare.load p).next := by
  rw [load_of_loadable idle h, Machine.load_next _ h, Machine.load_next _ h, same]

/-- **Running, pausing and stepping change nothing** about what the machine computes. After a load
of a program that fits and any calls, the machine is the one that a bare machine with the same input
becomes by as many steps, the events without those of the controller are those of the bare machine,
and the controller counted the steps that fetched an instruction. -/
theorem performAll_transparent (c : Controller ι) (idle : c.running = false) (bare : Machine ι)
    (same : bare.input = c.machine.input) {p : Program} (h : p.Loadable) (calls : List (Call σ)) :
    let loaded := c.load p
    let driven := loaded.next.performAll calls
    let count := loaded.next.stepCount calls
    let alone := (bare.load p).next.steps count
    loaded.result = .ok () ∧ driven.next.machine = alone.next ∧
      (loaded.journal ++ driven.journal).machineEvents =
        ((bare.load p).journal ++ alone.journal).events ∧
      driven.next.cycles = (bare.load p).next.fetchCount count := by
  intro loaded driven count alone
  have hmachine : loaded.next.machine = (bare.load p).next := machine_load idle same h
  have hjournal : loaded.journal.machineEvents = (bare.load p).journal.events := by
    rw [machineEvents_load idle h, Machine.events_load _ h, Machine.events_load _ h]
  have hcycles : loaded.next.cycles = 0 :=
    congrArg (fun turn => turn.next.cycles) (load_of_loadable idle h)
  have hresult : loaded.result = .ok () := congrArg Turn.result (load_of_loadable idle h)
  have range : loaded.next.machine.state.InRange := by
    rw [hmachine, Machine.load_next _ h]
    exact h.inRange
  have hsteps : loaded.next.machine.steps count = alone := by rw [hmachine]
  have hfollows := performAll_follows range calls
  refine ⟨hresult, ?_, ?_, ?_⟩
  · exact hfollows.machine.trans (congrArg Turn.next hsteps)
  · rw [Journal.machineEvents_append, Journal.events_append, hjournal, hfollows.events, ← hsteps]
  · have hcounted := hfollows.cycles
    rw [hcycles, Nat.zero_add, hmachine] at hcounted
    exact hcounted

/-- A machine for which 7 waits to be read. -/
def sevenWaiting : Machine (List Int) := .new [7]

/-- A program that puts out what it reads. -/
def echo : Program := .ofWords [901, 902, 0]

/-- A listener that asks for a pause whenever a cycle is complete. -/
def pausing : Listener Unit := ⟨fun _ _ _ => (), fun _ e => e matches .cycleAdvanced _⟩

/-- A listener that only listens. -/
def attending : Listener Unit := .silent fun _ _ => ()

/-- A run that is paused after its first cycle, between single steps, and a pause while nothing
runs. -/
def pausedOnce : List (Call Unit) := [.singleStep, .run pausing () 10, .pause, .singleStep]

/-- A controller with the program loaded. -/
def echoing : Turn (Controller (List Int)) (Except ControlError Unit) :=
  (new sevenWaiting).load echo

/-- Each of the steps and the paused run take one step, and all three fetch. -/
theorem performAll_echoing :
    echo.Loadable ∧ echoing.next.stepCount pausedOnce = 3 ∧
      (echoing.next.performAll pausedOnce).next.machine =
        ((sevenWaiting.load echo).next.steps 3).next ∧
      (echoing.next.performAll pausedOnce).next.cycles = 3 ∧
      .output 7 ∈
        (echoing.journal ++ (echoing.next.performAll pausedOnce).journal).machineEvents := by
  have fits : echo.Loadable := by decide
  have hcount : echoing.next.stepCount pausedOnce = 3 := by decide +kernel
  obtain ⟨-, hmachine, hevents, hcycles⟩ :=
    performAll_transparent (new sevenWaiting) rfl sevenWaiting rfl fits pausedOnce
  rw [← echoing, hcount] at hmachine hevents hcycles
  refine ⟨fits, hcount, hmachine, ?_, ?_⟩
  · rw [hcycles]
    decide +kernel
  · rw [hevents]
    decide +kernel

end Controller
end DecimalMachine
