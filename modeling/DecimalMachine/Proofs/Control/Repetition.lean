/-
# Loads and resets forget the past

What a controller does and tells is determined by its machine, its run state, its count of cycles and
whether a run is going on. A load and a reset set all of them, so nothing that was asked before can be seen
afterwards: two controllers on which the same program is loaded tell the same from then on, whatever is
asked of both and whoever listens, as long as the input sources hold the same values.

Only the rate stays. It decides when a cycle is due, which is not seen here, and whether the interval and
the deadline of a cycle can be computed at all, which is (`Rate.Alike`). Single steps do not need it.

A listener that reacts to events only cannot tell journals apart that have the same events
(`Listener.HearsEvents.deliver`). Log records and prompts differ between input sources.
-/

import DecimalMachine.Proofs.Control.Calls
import DecimalMachine.Proofs.Control.Underway
import DecimalMachine.Proofs.Machine.Alike

namespace DecimalMachine

/-- Rates at which the same violations end a run, which for representable rates is none. -/
structure Rate.Alike (rate other : Float) : Prop where
  duration : Rate.hasDuration rate = Rate.hasDuration other
  deadline : Rate.hasDeadline rate = Rate.hasDeadline other

/-- A rate ends a run with the violations that it ends it with. -/
theorem Rate.Alike.refl (rate : Float) : Rate.Alike rate rate := ⟨rfl, rfl⟩

namespace Listener

variable {σ : Type} {l : Listener σ}

/-- A listener that reacts to events, and to nothing else. -/
def HearsEvents (l : Listener σ) : Prop :=
  ∀ s running emission, emission.event? = none → l.hear s running emission = s

/-- Only the events of a journal matter. -/
theorem HearsEvents.deliver (hears : l.HearsEvents) (running : Bool) (s : σ) (j : Journal) :
    l.deliver running s j = l.deliver running s (j.events.map .event) := by
  induction j generalizing running s with
  | nil => rfl
  | cons emission rest ih =>
    -- What is no event leaves both the listener and the run flag as they are.
    cases emission with
    | event e => exact ih _ _
    | record r =>
      have hsame : l.hear s running (.record r) = s := hears s running _ rfl
      exact (congrArg (l.deliver running · rest) hsame).trans (ih running s)
    | prompt =>
      have hsame : l.hear s running .prompt = s := hears s running _ rfl
      exact (congrArg (l.deliver running · rest) hsame).trans (ih running s)

/-- Journals with the same events are heard alike. -/
theorem HearsEvents.deliver_eq (hears : l.HearsEvents) {j k : Journal} (events : j.events = k.events)
    (running : Bool) (s : σ) : l.deliver running s j = l.deliver running s k := by
  rw [hears.deliver running s j, events, ← hears.deliver running s k]

end Listener

namespace Controller

variable {ι κ σ : Type} [InputSource ι] [InputSource κ]

/-- Two controllers that work alike, but for their rates. -/
structure Alike (c : Controller ι) (d : Controller κ) : Prop where
  machine : c.machine.Alike d.machine
  runState : c.runState = d.runState
  cycles : c.cycles = d.cycles
  running : c.running = d.running

/-- Two controllers that work alike also when they run. -/
structure Paced (c : Controller ι) (d : Controller κ) : Prop extends c.Alike d where
  rate : Rate.Alike c.rate d.rate

variable {c : Controller ι} {d : Controller κ}

/-! ### One cycle -/

/-- Alike controllers enter a run state alike. -/
theorem Alike.enter (h : c.Alike d) (state : RunState) :
    (c.enter state).Alike Alike (d.enter state) :=
  ⟨⟨h.machine, rfl, h.cycles, h.running⟩, rfl, rfl⟩

/-- Alike controllers count a cycle alike, and tell the same number. -/
theorem Alike.count (h : c.Alike d) : c.count.Alike Alike d.count where
  next := ⟨h.machine, h.runState, congrArg (· + 1) h.cycles, h.running⟩
  events := by
    unfold Controller.count
    rw [h.cycles]
  result := rfl

/-- Counted steps of alike controllers are the same. -/
theorem Alike.stepped (h : c.Alike d) : c.stepped.Alike Alike d.stepped := by
  have hstep := h.machine.step
  have hafter : Alike { c with machine := c.machine.step.next } { d with machine := d.machine.step.next } :=
    ⟨hstep.next, h.runState, h.cycles, h.running⟩
  unfold Controller.stepped
  rw [h.machine.pastEnd]
  cases d.machine.pastEnd with
  | true =>
    have hsilent : Turn.Alike Alike
        (⟨{ c with machine := c.machine.step.next }, [], ()⟩ : Turn (Controller ι) Unit)
        ⟨{ d with machine := d.machine.step.next }, [], ()⟩ := ⟨hafter, rfl, rfl⟩
    exact hstep.append hsilent rfl
  | false => exact hstep.append hafter.count rfl

/-- **A cycle of alike controllers is the same**, and leaves them alike. -/
theorem Alike.cycle (h : c.Alike d) : c.cycle.Alike Alike d.cycle := by
  have hstep := h.machine.step
  have hstepped := h.stepped
  cases stopped : d.machine.isStopped with
  | true =>
    rw [cycle_of_isStopped stopped, cycle_of_isStopped (h.machine.isStopped.trans stopped)]
    exact ⟨h, rfl, rfl⟩
  | false =>
    have going : c.machine.isStopped = false := h.machine.isStopped.trans stopped
    cases result : d.machine.step.result with
    | error violation =>
      have hresult : c.machine.step.result = .error violation := hstep.result.trans result
      unfold Controller.cycle
      rw [going, stopped]
      dsimp only
      rw [hresult, result]
      exact ⟨⟨hstep.next, h.runState, h.cycles, h.running⟩, hstep.events, rfl⟩
    | ok goesOn =>
      have hresult : c.machine.step.result = .ok goesOn := hstep.result.trans result
      rw [cycle_of_result going hresult, cycle_of_result stopped result]
      cases goesOn with
      | true => exact ⟨hstepped.next, hstepped.events, rfl⟩
      | false =>
        dsimp only
        rw [hstepped.next.machine.stop]
        exact hstepped.append (hstepped.next.enter _) rfl

/-- Single steps of alike controllers are the same, or are refused to both. -/
theorem Alike.singleStep (h : c.Alike d) : c.singleStep.Alike Alike d.singleStep := by
  unfold Controller.singleStep
  rw [h.running]
  split
  · exact ⟨h, rfl, rfl⟩
  · have hcycle := h.cycle
    exact ⟨hcycle.next, hcycle.events, congrArg (Except.mapError ControlError.violated) hcycle.result⟩

/-- **Single steps of alike controllers are the same**, at whatever rates. -/
theorem Alike.singleSteps (h : c.Alike d) (count : Nat) :
    (c.singleSteps count).Alike Alike (d.singleSteps count) := by
  induction count generalizing c d with
  | zero => exact ⟨h, rfl, rfl⟩
  | succ count ih =>
    have hfirst := h.singleStep
    have hrest := ih hfirst.next
    exact hfirst.append hrest (congrArg₂ List.cons hfirst.result hrest.result)

/-- A cycle keeps the rates alike too. -/
theorem Paced.cycle (h : c.Paced d) : c.cycle.Alike Paced d.cycle := by
  have hcycle := h.toAlike.cycle
  refine ⟨⟨hcycle.next, ?_⟩, hcycle.events, hcycle.result⟩
  rw [(frame_cycle c).2, (frame_cycle d).2]
  exact h.rate

/-- A cycle of alike controllers is a step of both machines or of none. -/
theorem Alike.cycleSteps (h : c.Alike d) : c.cycleSteps = d.cycleSteps := by
  unfold Controller.cycleSteps
  rw [h.machine.isStopped]

/-! ### Runs -/

variable {l : Listener σ}

/-- What a listener that reacts to events only makes of alike turns. -/
theorem Paced.announce {α : Type} {turn : Turn (Controller ι) α} {other : Turn (Controller κ) α}
    (h : turn.Alike Paced other) (hears : l.HearsEvents) (s : σ) :
    (announce l s turn).1.Paced (announce l s other).1 ∧
      (announce l s turn).2 = (announce l s other).2 := by
  have hdelivered : l.deliver turn.next.running s turn.journal =
      l.deliver other.next.running s other.journal := by
    rw [h.next.running]
    exact hears.deliver_eq h.events other.next.running s
  unfold Controller.announce
  rw [hdelivered]
  exact ⟨⟨⟨h.next.machine, h.next.runState, h.next.cycles, rfl⟩, h.next.rate⟩, rfl⟩

/-- Runs of alike controllers start alike. -/
theorem Paced.start (h : c.Paced d) : c.start.Alike Paced d.start :=
  ⟨⟨⟨h.machine, rfl, h.cycles, rfl⟩, h.rate⟩, rfl, rfl⟩

/-- Runs of alike controllers end alike. -/
theorem Paced.finish (h : c.Paced d) : c.finish.Alike Paced d.finish := by
  unfold Controller.finish
  rw [h.runState]
  split
  · exact ⟨⟨⟨h.machine, rfl, h.cycles, rfl⟩, h.rate⟩, rfl, rfl⟩
  · exact ⟨⟨⟨h.machine, rfl, h.cycles, rfl⟩, h.rate⟩, rfl, rfl⟩

/-- Recorded runs that are the same, but for what is no event. -/
structure Run.Alike (run : Run ι (σ × Journal)) (other : Run κ (σ × Journal)) : Prop where
  controller : run.controller.Paced other.controller
  listener : run.listener.1 = other.listener.1
  events : run.listener.2.events = other.listener.2.events
  ending : run.ending = other.ending

/-- Runs of alike controllers end alike before a listener that reacts to events only. -/
theorem Paced.conclude (h : c.Paced d) (hears : l.HearsEvents) (s : σ) {j k : Journal}
    (events : j.events = k.events) :
    (conclude l.recording c (s, j)).Alike (conclude l.recording d (s, k)) := by
  have hfinish := h.finish
  obtain ⟨hpaced, hlistener⟩ := Paced.announce hfinish hears s
  unfold Controller.conclude
  rw [announce_recording, announce_recording]
  refine ⟨hpaced, hlistener, ?_, congrArg RunEnding.returned hpaced.runState⟩
  exact Journal.events_append_congr events hfinish.events

/-- Runs of alike controllers that were started take as many steps and are the same. The induction is on the
number of cycles that the run may take. -/
theorem Paced.runFrom (h : c.Paced d) (hears : l.HearsEvents) (limit : Nat) (s : σ) {j k : Journal}
    (events : j.events = k.events) :
    runFromSteps l limit c s = runFromSteps l limit d s ∧
      (runFrom l.recording limit c (s, j)).Alike (runFrom l.recording limit d (s, k)) := by
  induction limit generalizing c d s j k with
  | zero =>
    unfold runFromSteps Controller.runFrom
    rw [h.running]
    split
    · exact ⟨rfl, h, rfl, events, rfl⟩
    · exact ⟨rfl, h.conclude hears s events⟩
  | succ limit ih =>
    have hcycle := h.cycle
    obtain ⟨hpaced, hlistener⟩ := Paced.announce hcycle hears s
    have hsteps := h.cycleSteps
    have hevents : (j ++ c.cycle.journal).events = (k ++ d.cycle.journal).events :=
      Journal.events_append_congr events hcycle.events
    unfold runFromSteps Controller.runFrom
    rw [h.running]
    split
    · dsimp only
      rw [announce_recording, announce_recording, hcycle.result, hlistener, hsteps]
      cases d.cycle.result with
      | error violation => exact ⟨rfl, hpaced, rfl, hevents, rfl⟩
      | ok goesOn =>
        cases goesOn with
        | false => exact ⟨rfl, hpaced.conclude hears _ hevents⟩
        | true =>
          dsimp only
          rw [hpaced.rate.deadline]
          split
          · obtain ⟨hmore, hrun⟩ := ih hpaced (Controller.announce l s d.cycle).2 hevents
            exact ⟨congrArg (d.cycleSteps + ·) hmore, hrun⟩
          · exact ⟨rfl, hpaced, rfl, hevents, rfl⟩
    · exact ⟨rfl, h.conclude hears s events⟩

/-- **Runs of alike controllers are the same**, take as many steps, and leave them alike. -/
theorem Paced.run (h : c.Paced d) (hears : l.HearsEvents) (limit : Nat) (s : σ) :
    runSteps l limit c s = runSteps l limit d s ∧
      (run l.recording limit c (s, [])).Alike (run l.recording limit d (s, [])) := by
  unfold runSteps Controller.run
  rw [h.running, h.runState]
  split
  · have hsilent : Turn.Alike Paced
        (⟨c, [.record ⟨.debug, "Already running"⟩], ()⟩ : Turn (Controller ι) Unit)
        ⟨d, [.record ⟨.debug, "Already running"⟩], ()⟩ := ⟨h, rfl, rfl⟩
    obtain ⟨hpaced, hlistener⟩ := Paced.announce hsilent hears s
    rw [announce_recording, announce_recording]
    exact ⟨rfl, hpaced, hlistener, rfl, congrArg RunEnding.returned hpaced.runState⟩
  · split
    · exact ⟨rfl, h, rfl, rfl, rfl⟩
    · have hstart := h.start
      obtain ⟨hpaced, hlistener⟩ := Paced.announce hstart hears s
      dsimp only
      rw [announce_recording, announce_recording, hlistener, hpaced.rate.duration]
      split
      · exact hpaced.runFrom hears limit _ (Journal.events_append_congr rfl hstart.events)
      · exact ⟨rfl, hpaced, rfl, hstart.events, rfl⟩

/-! ### Calls -/

/-- A call to whose listener only events matter. -/
def Call.HearsEvents : Call σ → Prop
  | run l _ _ => l.HearsEvents
  | singleStep | pause | setRate _ => True

/-- **A call to alike controllers does the same**, takes as many steps, and leaves them alike. -/
theorem Paced.perform (h : c.Paced d) {call : Call σ} (hears : call.HearsEvents) :
    c.callSteps call = d.callSteps call ∧ (c.perform call).Alike Paced (d.perform call) := by
  cases call with
  | run l s limit =>
    obtain ⟨hsteps, hrun⟩ := h.run (l := l) hears limit s
    have hc : (c.run l.recording limit (s, [])).controller = (c.run l limit s).controller :=
      congrArg Run.controller (run_recording l s [] limit c)
    have hd : (d.run l.recording limit (s, [])).controller = (d.run l limit s).controller :=
      congrArg Run.controller (run_recording l s [] limit d)
    have hpaced := hrun.controller
    rw [hc, hd] at hpaced
    exact ⟨hsteps, hpaced, hrun.events, rfl⟩
  | singleStep =>
    have hstep := h.singleStep
    have hsteps : c.callSteps (.singleStep : Call σ) = d.callSteps (.singleStep : Call σ) := by
      unfold callSteps
      rw [h.running, h.cycleSteps]
    have hrate : Rate.Alike c.singleStep.next.rate d.singleStep.next.rate := by
      rw [rate_singleStep, rate_singleStep]
      exact h.rate
    exact ⟨hsteps, ⟨hstep.next, hrate⟩, hstep.events, rfl⟩
  | pause => exact ⟨rfl, ⟨⟨h.machine, h.runState, h.cycles, rfl⟩, h.rate⟩, rfl, rfl⟩
  | setRate rate =>
    unfold Controller.perform Controller.setRate
    dsimp only
    cases Rate.isAccepted rate with
    | true =>
      exact ⟨rfl, ⟨⟨h.machine, h.runState, h.cycles, h.running⟩, .refl rate⟩, rfl, rfl⟩
    | false => exact ⟨rfl, h, rfl, rfl⟩

/-- **So do any calls in order.** -/
theorem Paced.performAll (h : c.Paced d) {calls : List (Call σ)}
    (hears : ∀ call ∈ calls, call.HearsEvents) :
    c.stepCount calls = d.stepCount calls ∧
      (c.performAll calls).Alike Paced (d.performAll calls) := by
  induction calls generalizing c d with
  | nil => exact ⟨rfl, h, rfl, rfl⟩
  | cons call rest ih =>
    obtain ⟨hcall, hothers⟩ := List.forall_mem_cons.1 hears
    obtain ⟨hsteps, hfirst⟩ := h.perform hcall
    obtain ⟨hmore, hrest⟩ := ih hfirst.next hothers
    exact ⟨congrArg₂ (· + ·) hsteps hmore, hfirst.append hrest rfl⟩

/-! ### From a load on -/

section Restart

variable {p : Program}

/-- **A load makes any two idle controllers alike** whose input sources hold the same values. -/
theorem alike_load (idle : c.running = false) (idle' : d.running = false)
    (sources : InputSource.Alike c.machine.input d.machine.input) (fits : p.Loadable) :
    (c.load p).Alike Alike (d.load p) := by
  have hmachine := c.machine.alike_load d.machine sources fits
  rw [load_of_loadable idle fits, load_of_loadable idle' fits]
  refine ⟨⟨hmachine.next, rfl, rfl, idle.trans idle'.symm⟩, ?_, rfl⟩
  exact Journal.events_append_congr hmachine.events rfl

/-- Loads a program and takes single steps. The result lists what they came to and the answers that the
input source gave. -/
def replaySteps (c : Controller ι) (p : Program) (count : Nat) :
    Turn (Controller ι) (List (Except ControlError Bool) × List (Option Int)) :=
  let loading := c.load p
  let stepping := loading.next.singleSteps count
  ⟨stepping.next, loading.journal ++ stepping.journal, stepping.result,
    loading.next.machine.received count⟩

/-- Loads a program and performs calls. The result lists the answers that the input source gave. -/
def replay (c : Controller ι) (p : Program) (calls : List (Call σ)) :
    Turn (Controller ι) (List (Option Int)) :=
  let loading := c.load p
  let calling := loading.next.performAll calls
  ⟨calling.next, loading.journal ++ calling.journal,
    loading.next.machine.received (loading.next.stepCount calls)⟩

/-- An idle controller takes single steps. -/
theorem singleSteps_follows (range : c.machine.state.InRange) (idle : c.running = false) (count : Nat) :
    c.Follows count (c.singleSteps count).journal (c.singleSteps count).next := by
  induction count generalizing c with
  | zero => exact .refl c
  | succ count ih =>
    have hstep := singleStep_of_idle idle
    have hcycle := cycle_follows_step range
    obtain ⟨hrunning, -⟩ := frame_cycle c
    have hrest := ih (hcycle.inRange range) (hrunning.trans idle)
    have hall := hcycle.trans hrest
    rw [Nat.add_comm] at hall
    unfold singleSteps
    dsimp only
    rw [hstep]
    exact hall

/-- What a load of a program and a reset make of a controller: it is ready and has counted nothing. By single
steps after the load its machine becomes what it would become alone, and the reset leaves a new controller
but for its rate. -/
structure Restarts (c : Controller ι) (p : Program) : Prop where
  loaded : (c.load p).result = .ok ()
  ready : (c.load p).next.runState = .ready
  cycles : (c.load p).next.cycles = 0
  alone : ∀ count, (c.replaySteps p count).next.machine = (c.machine.replay p count).next
  reset : c.reset.result = .ok ()
  renewed : c.reset.next = { new (.new c.machine.input) with rate := c.rate }

/-- An idle controller is restarted by a load of a program that fits, and by a reset. -/
theorem restarts_of_idle (idle : c.running = false) (fits : p.Loadable) : c.Restarts p := by
  have hload := load_of_loadable idle fits
  have hreset := reset_of_idle idle
  refine ⟨?_, ?_, ?_, fun count => ?_, ?_, ?_⟩
  · rw [hload]
  · rw [hload]
  · rw [hload]
  · have hmachine : (c.load p).next.machine = (c.machine.load p).next := by rw [hload]
    have hidle : (c.load p).next.running = false := by
      rw [hload]
      exact idle
    have hrange : (c.load p).next.machine.state.InRange := by
      rw [hmachine, c.machine.load_next fits]
      exact fits.inRange
    have halone := (singleSteps_follows hrange hidle count).machine
    rw [hmachine] at halone
    exact halone
  · rw [hreset]
  · rw [hreset, idle]
    rfl

/-- **Loads and resets erase all history.** Whatever two machines were before, and whatever two idle
controllers, if their input sources hold the same values then after a load of the same program they are
alike, and stay so by any number of steps; the load and the steps tell the same, come to the same and are
given the same answers, which are the only requests that are made. Of the past a load leaves nothing but the
input source, and neither does a reset, which leaves a new machine.

The same holds of calls with runs, to whose listeners only events matter, unless a violation ends the run
at one of the two rates only. -/
theorem restarts_forget (fits : p.Loadable) :
    (∀ (m : Machine ι) (n : Machine κ), InputSource.Alike m.input n.input → ∀ count,
      (m.replay p count).Alike Machine.Alike (n.replay p count) ∧
        (m.replay p count).next.input =
          InputSource.after (m.replay p count).result.2.length m.input) ∧
    (∀ m : Machine ι, (m.load p).result = .ok () ∧
      (m.load p).next = ⟨p.loadedState, p, none, m.input, fits.extent_le⟩ ∧
        m.reset.next = .new m.input) ∧
    (∀ c : Controller ι, c.running = false → c.Restarts p) ∧
    ∀ (c : Controller ι) (d : Controller κ), c.running = false → d.running = false →
      InputSource.Alike c.machine.input d.machine.input →
        (∀ count, (c.replaySteps p count).Alike Alike (d.replaySteps p count)) ∧
          (Rate.Alike c.rate d.rate → ∀ calls : List (Call σ), (∀ call ∈ calls, call.HearsEvents) →
            (c.replay p calls).Alike Paced (d.replay p calls)) := by
  refine ⟨fun m n sources count => ?_, fun m => ?_, fun c idle => ?_,
    fun c d idle idle' sources => ?_⟩
  · have hinput := (m.load p).next.input_steps count
    have hloaded : (m.load p).next.input = m.input := by rw [m.load_next fits]
    refine ⟨m.alike_replay n sources fits count, hinput.trans ?_⟩
    rw [hloaded]
    rfl
  · exact ⟨m.load_result fits, m.load_next fits, rfl⟩
  · exact restarts_of_idle idle fits
  · have hload := alike_load idle idle' sources fits
    refine ⟨fun count => ?_, fun rates calls hears => ?_⟩
    · have hsteps := hload.next.singleSteps count
      have hreceived := hload.next.machine.received count
      exact hload.append hsteps (congrArg₂ Prod.mk hsteps.result hreceived)
    · have hpaced : (c.load p).next.Paced (d.load p).next := by
        refine ⟨hload.next, ?_⟩
        rw [load_of_loadable idle fits, load_of_loadable idle' fits]
        exact rates
      obtain ⟨hcount, hcalls⟩ := hpaced.performAll hears
      refine hload.append hcalls ?_
      rw [hcount]
      exact hload.next.machine.received _

end Restart

/-- The lines `3`, `x` and `7`, waiting at a console. -/
def typed : Console := .ofBytes [51, 10, 120, 10, 55, 10]

/-- A controller whose machine put out the 3 and halted. -/
def used : Controller Console :=
  (((new (.new typed)).load echo).next.performAll
    [.run pausing () 10, .setRate 2.5, .run pausing () 10, .singleStep]).next

/-- The console has a line to reject, and then the same value as a queue that holds a 7. -/
theorem alike_used : InputSource.Alike used.machine.input sevenWaiting.input := by
  have hvalue : (InputSource.request used.machine.input).value = some 7 := by decide +kernel
  have hnext : (InputSource.request used.machine.input).source = ⟨[]⟩ := by decide +kernel
  refine .of_next hvalue ?_
  rw [hnext]
  exact InputSource.alike_empty

/-- Loaded again, the controller does what a new one does for which the 7 waits in a queue. -/
theorem restarts_forget_used :
    echo.Loadable ∧ used.runState = .halted ∧ used.Restarts echo ∧
      (used.replaySteps echo 3).Alike Alike ((new sevenWaiting).replaySteps echo 3) ∧
      (used.replay echo [.run pausing () 10, .singleStep]).Alike Paced
        ((new sevenWaiting).replay echo [.run pausing () 10, .singleStep]) ∧
      .output 7 ∈ (used.replaySteps echo 3).journal.events := by
  have fits : echo.Loadable := by decide
  have idle : used.running = false := by decide +kernel
  have rates : Rate.Alike used.rate (new sevenWaiting).rate := ⟨by decide +kernel, by decide +kernel⟩
  have hears : ∀ call ∈ ([.run pausing () 10, .singleStep] : List (Call Unit)), call.HearsEvents :=
    List.forall_mem_cons.2 ⟨fun _ _ _ _ => rfl, List.forall_mem_singleton.2 trivial⟩
  obtain ⟨-, -, hrestarts, halike⟩ :=
    restarts_forget (σ := Unit) (ι := Console) (κ := List Int) fits
  obtain ⟨hsteps, hcalls⟩ := halike used (new sevenWaiting) idle rfl alike_used
  refine ⟨fits, by decide +kernel, hrestarts used idle, hsteps 3, hcalls rates _ hears, ?_⟩
  rw [(hsteps 3).events]
  decide +kernel

end Controller
end DecimalMachine
