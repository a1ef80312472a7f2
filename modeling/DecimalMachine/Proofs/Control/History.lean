/-
# Histories of calls

A controller of a new machine is loaded, reset, stepped, run, paused and given other rates, in any order,
while observers listen that ask for pauses at any events and may come and go between the calls.
`History` is a controller after such calls, with all changes of its run state and the journal since it was
last loaded or reset. A run that reaches its limit of cycles is not finished, and no call comes after it.

`Standing` is what holds between two calls, whatever was asked for: no run is going on, and the run state
is the one that the stop of the machine settles. From it each call leads by allowed changes of the run
state to a controller that stands again if the call is finished, and counts the cycles in between.

The one thing that can go wrong is a run at a rate that leaves no time for it. A violation cuts it off and
the run state stays running, so that the controller tells what is the case after all calls exactly if no run is
cut off (`History.Unbroken`). At rates that can be represented none is.
-/

import DecimalMachine.Proofs.Control.Rates

namespace DecimalMachine
namespace Controller

variable {ι σ : Type}

/-- What can be asked of a controller to which a listener with states in `σ` listens. -/
inductive Operation (σ : Type) where
  | load (p : Program)
  | reset
  | singleStep
  /-- Runs for at most `limit` cycles. -/
  | run (limit : Nat)
  | pause
  | setRate (rate : Float)
  /-- Observers come or go: from now on the listener is in the state `s`. -/
  | observe (s : σ)

namespace Operation

/-- Whether an operation restarts the machine. -/
def restarts : Operation σ → Bool
  | load _ | reset => true
  | singleStep | run _ | pause | setRate _ | observe _ => false

/-- An operation that loads no program but one that fits, and sets no rate but one whose interval and whose next
moment can be represented. A rate that is not accepted is not set. -/
def Admissible : Operation σ → Prop
  | load p => p.Loadable
  | setRate rate => Rate.isAccepted rate = true → Rate.IsRepresentable rate
  | reset | singleStep | run _ | pause | observe _ => True

instance : (operation : Operation σ) → Decidable operation.Admissible
  | load p => inferInstanceAs (Decidable p.Loadable)
  | setRate rate =>
    inferInstanceAs (Decidable (Rate.isAccepted rate = true → Rate.IsRepresentable rate))
  | reset | singleStep | run _ | pause | observe _ => isTrue trivial

/-- An operation that loads no program but one that fits. -/
def Loadable : Operation σ → Prop
  | load p => p.Loadable
  | reset | singleStep | run _ | pause | setRate _ | observe _ => True

instance : (operation : Operation σ) → Decidable operation.Loadable
  | load p => inferInstanceAs (Decidable p.Loadable)
  | reset | singleStep | run _ | pause | setRate _ | observe _ => isTrue trivial

end Operation

/-- Whether a run came to an end. -/
def RunEnding.isFinished : RunEnding → Bool
  | unfinished => false
  | returned _ | violated _ => true

/-- Does what an operation asks for, with a listener in the state `s`. The result tells whether the call is
finished. -/
def ask [InputSource ι] (l : Listener σ) (c : Controller ι) (s : σ) :
    Operation σ → Turn (Controller ι × σ) Bool
  | .load p => ⟨announce l s (c.load p), (c.load p).journal, true⟩
  | .reset => ⟨announce l s c.reset, c.reset.journal, true⟩
  | .singleStep => ⟨announce l s c.singleStep, c.singleStep.journal, true⟩
  | .run limit =>
    let run := c.run l limit s
    ⟨(run.controller, run.listener), c.runJournal l limit s, run.ending.isFinished⟩
  | .pause => ⟨(c.pause, s), [], true⟩
  | .setRate rate => ⟨((c.setRate rate).toOption.getD c, s), [], true⟩
  | .observe s => ⟨(c, s), [], true⟩

/-- An operation that is a run which a violation cuts off. -/
def Breaks [InputSource ι] (l : Listener σ) (c : Controller ι) (s : σ) : Operation σ → Prop
  | .run limit => ∃ violation, (c.run l limit s).ending = .violated violation
  | .load _ | .reset | .singleStep | .pause | .setRate _ | .observe _ => False

/-- What holds of a controller between two calls. -/
structure Standing (c : Controller ι) : Prop where
  idle : c.running = false
  settled : c.runState = .settled c.machine.stop
  range : c.machine.state.InRange

/-- A controller at rest: no run is going on, and the run state tells how the machine stands. -/
structure AtRest (c : Controller ι) : Prop where
  idle : c.running = false
  notRunning : c.runState ≠ .running
  halted : c.runState = .halted ↔ ∃ reason, c.machine.stop = some (.halted reason)
  errored : c.runState = .errored ↔ ∃ fault, c.machine.stop = some (.errored fault)
  ready : c.runState = .ready ↔ c.machine.stop = none

/-- The answer of a controller to a call: allowed changes of its run state, the cycles counted on (from the
first one if the call restarts the machine), and a controller that stands if the call is finished. -/
structure Answered (c : Controller ι) (restart : Bool) (turn : Turn (Controller ι × σ) Bool) :
    Prop where
  leads : Leads c.runState (turn.journal.changes restart) turn.next.1.runState
  counts : turn.journal.Counts (if restart then 0 else c.cycles) turn.next.1.cycles
  standing : turn.result = true → turn.next.1.Standing

variable {c : Controller ι} {l : Listener σ} {s : σ}

/-- An operation that is admissible loads only a program that fits. -/
theorem Operation.Admissible.loadable {operation : Operation σ} (h : operation.Admissible) :
    operation.Loadable := by
  cases operation with
  | load p => exact h
  | reset | singleStep | run | pause | setRate | observe => trivial

/-- A controller of a new machine stands. -/
theorem standing_new (input : ι) : (new (.new input)).Standing where
  idle := rfl
  settled := rfl
  range := State.inRange_zero

/-- A machine of a ready controller can go on. -/
theorem Standing.runState_of_going (h : c.Standing) (going : c.machine.isStopped = false) :
    c.runState = .ready := by
  rw [h.settled, Machine.stop_eq_none going]
  rfl

/-- A controller that stands can start a run unless its run state is terminal. -/
theorem Standing.startable (h : c.Standing) (waiting : c.runState.isTerminal = false) :
    c.Startable where
  idle := h.idle
  waiting := waiting
  going := by rwa [h.settled, RunState.isTerminal_settled] at waiting
  range := h.range

/-- A controller that stands is at rest. -/
theorem Standing.atRest (h : c.Standing) : c.AtRest := by
  refine ⟨h.idle, ?_, ?_, ?_, ?_⟩
  · rw [h.settled]
    exact RunState.settled_ne_running _
  · rw [h.settled, RunState.settled_eq_halted_iff]
  · rw [h.settled, RunState.settled_eq_errored_iff]
  · rw [h.settled, RunState.settled_eq_ready_iff]

/-- **A request for a pause changes nothing while no run is going on**, whoever makes it. -/
theorem announce_of_idle {α : Type} {turn : Turn (Controller ι) α} (idle : turn.next.running = false) :
    (announce l s turn).1 = turn.next := by
  unfold announce
  rw [idle]
  dsimp only
  rw [l.deliver_false, ← idle]

/-- A pause while no run is going on changes nothing. -/
theorem pause_of_idle (idle : c.running = false) : c.pause = c := by
  unfold pause
  rw [← idle]

/-! ### Each call -/

/-- A call that leaves the machine alone and tells nothing. -/
theorem Standing.answered_of_silent {d : Controller ι} (h : d.Standing)
    (runState : d.runState = c.runState) (cycles : d.cycles = c.cycles) :
    c.Answered false ⟨(d, s), [], true⟩ where
  leads := runState
  counts := by
    rw [cycles]
    exact .of_silent rfl c.cycles
  standing _ := h

/-- A call that replaces the machine by one that can go on, and makes the controller ready. -/
theorem Standing.answered_restart (h : c.Standing) {machine : Machine ι} {journal : Journal}
    (going : machine.stop = none) (range : machine.state.InRange)
    (quiet : journal.machineEvents = journal.events) (result : Except ControlError Unit) :
    let turn : Turn (Controller ι) (Except ControlError Unit) :=
      ⟨{ c with machine := machine, cycles := 0, runState := .ready },
        journal ++ enterJournal c.runState .ready, result⟩
    c.Answered true ⟨announce l s turn, turn.journal, true⟩ := by
  intro turn
  obtain ⟨hstates, hnumbers⟩ := Journal.silent_of_machineEvents quiet
  have hturn : (announce l s turn).1 = turn.next := announce_of_idle h.idle
  refine ⟨?_, ?_, fun _ => ?_⟩
  · dsimp only
    rw [hturn, Journal.changes, Journal.runStates_append, hstates]
    exact ⟨RunState.move_restart _, rfl⟩
  · dsimp only
    rw [hturn]
    exact (Journal.Counts.of_silent hnumbers 0).append (.of_silent rfl 0)
  · dsimp only
    rw [hturn]
    exact ⟨h.idle, by rw [going]; rfl, range⟩

/-- A load of a program that fits is answered. -/
theorem Standing.answered_load (h : c.Standing) {p : Program} (loadable : p.Loadable) :
    c.Answered true ⟨announce l s (c.load p), (c.load p).journal, true⟩ := by
  rw [load_of_loadable h.idle loadable]
  refine h.answered_restart ?_ ?_ (Machine.machineEvents_load _ loadable) _
  · rw [Machine.load_next _ loadable]
  · rw [Machine.load_next _ loadable]
    exact loadable.inRange

/-- A reset is answered. -/
theorem Standing.answered_reset (h : c.Standing) :
    c.Answered true ⟨announce l s c.reset, c.reset.journal, true⟩ := by
  rw [reset_of_idle h.idle]
  exact h.answered_restart rfl State.inRange_zero rfl _

variable [InputSource ι]

/-- A cycle changes the run state only if it stops the machine. -/
theorem Standing.leads_cycle (h : c.Standing) :
    Leads c.runState (c.cycle.journal.changes false) c.cycle.next.runState ∧
      c.cycle.next.runState = .settled c.cycle.next.machine.stop := by
  cases going : c.machine.isStopped with
  | true =>
    rw [cycle_of_isStopped going]
    exact ⟨rfl, h.settled⟩
  | false =>
    obtain ⟨hstates, -⟩ := told_stepped c
    have hready := h.runState_of_going going
    cases next : c.machine.step.next.isStopped with
    | false =>
      obtain ⟨-, -, hstate⟩ := frame_stepped c
      rw [cycle_of_goesOn h.range going next, Journal.changes, hstates]
      dsimp only
      rw [machine_stepped, hstate, hready, Machine.stop_eq_none next]
      exact ⟨rfl, rfl⟩
    | true =>
      rw [cycle_of_stops h.range going next, Journal.changes, Journal.runStates_append, hstates,
        hready]
      dsimp only
      rw [machine_stepped]
      exact ⟨⟨RunState.move_ready _ _, rfl⟩, rfl⟩

/-- A single step is answered. -/
theorem Standing.answered_singleStep (h : c.Standing) :
    c.Answered false ⟨announce l s c.singleStep, c.singleStep.journal, true⟩ := by
  have hstep := singleStep_of_idle h.idle
  obtain ⟨hrunning, -⟩ := frame_cycle c
  obtain ⟨hleads, hsettled⟩ := h.leads_cycle
  have hrange := (cycle_follows_step h.range).inRange h.range
  have hturn : (announce l s c.singleStep).1 = c.cycle.next := by
    rw [hstep]
    exact announce_of_idle (hrunning.trans h.idle)
  refine ⟨?_, ?_, fun _ => ?_⟩
  · rw [hturn, hstep]
    exact hleads
  · rw [hturn, hstep]
    exact counts_cycle h.range
  · rw [hturn]
    exact ⟨hrunning.trans h.idle, hsettled, hrange⟩

/-- A controller whose run is complete stands. -/
theorem Startable.standing_completed (ready : c.Startable) (count : Nat) :
    (c.completed count).next.Standing := by
  obtain ⟨hsettled, -⟩ := runStates_completed ready.range ready.going count
  obtain ⟨hidle, hmachine, -⟩ := frame_finish (c.underway count).next
  have hnext : (c.completed count).next = (c.underway count).next.finish.next := rfl
  refine ⟨hidle, ?_, ?_⟩
  · rw [hnext, hmachine]
    exact hsettled
  · rw [hnext, hmachine]
    exact inRange_underway ready.range count

/-- **A run that is not cut off** is told to be running and, once it is finished, how the machine then stands.
While it is not finished the run state is running. -/
theorem Startable.answered_run (ready : c.Startable) (standing : c.Standing) {limit : Nat}
    (sound : ¬ Breaks l c s (.run limit)) : c.Answered false (c.ask l s (.run limit)) := by
  have hready := standing.runState_of_going ready.going
  unfold ask
  rcases ready.run_outcome l s limit with ⟨time, proceeds⟩ | ⟨count, le, time, ends⟩ |
    ⟨violation, asked, stranded⟩
  · obtain ⟨hstate, hstates⟩ := runStates_underway ready.range ready.going limit
    rw [proceeds.going] at hstate hstates
    dsimp only
    rw [runJournal_of_proceeds ready time proceeds, run_of_proceeds ready time proceeds]
    refine ⟨?_, counts_underway ready.range limit, nofun⟩
    dsimp only
    rw [hready, hstate, Journal.changes, hstates]
    exact ⟨RunState.move_ready _ _, rfl⟩
  · obtain ⟨hstate, hstates⟩ := runStates_completed ready.range ready.going count
    dsimp only
    rw [runJournal_of_ends ready time ends le, run_of_ends ready time ends le]
    refine ⟨?_, counts_completed ready.range count, fun _ => ready.standing_completed count⟩
    have hsettled : (c.completed count).next.runState = .settled (c.underway count).next.machine.stop :=
      hstate
    rw [hready, Journal.changes, hstates]
    dsimp only [concluded]
    rw [hsettled]
    exact ⟨RunState.move_ready _ _, RunState.settled_ne_running _, rfl⟩
  · exact absurd ⟨violation, stranded.violated⟩ sound

/-- A run of a stopped machine returns how it stopped. -/
theorem Standing.run_of_isTerminal (h : c.Standing) (terminal : c.runState.isTerminal = true)
    (l : Listener σ) (limit : Nat) (s : σ) : c.run l limit s = ⟨c, s, .returned c.runState⟩ := by
  rw [run, h.idle, terminal]
  rfl

/-- **Every call is answered**, if it loads no program that does not fit and is no run that is cut off. -/
theorem Standing.answered (h : c.Standing) {operation : Operation σ} (loadable : operation.Loadable)
    (sound : ¬ Breaks l c s operation) : c.Answered operation.restarts (c.ask l s operation) := by
  cases operation with
  | load p => exact h.answered_load loadable
  | reset => exact h.answered_reset
  | singleStep => exact h.answered_singleStep
  | run limit =>
    cases waiting : c.runState.isTerminal with
    | false => exact (h.startable waiting).answered_run h sound
    | true =>
      unfold ask runJournal
      dsimp only
      rw [h.run_of_isTerminal waiting, h.run_of_isTerminal waiting]
      exact h.answered_of_silent rfl rfl
  | pause =>
    unfold ask
    rw [pause_of_idle h.idle]
    exact h.answered_of_silent rfl rfl
  | setRate rate =>
    show c.Answered false ⟨((c.setRate rate).toOption.getD c, s), [], true⟩
    unfold Controller.setRate
    cases accepted : Rate.isAccepted rate with
    | true =>
      have hset : ({ c with rate := rate } : Controller ι).Standing :=
        ⟨h.idle, h.settled, h.range⟩
      exact hset.answered_of_silent rfl rfl
    | false => exact h.answered_of_silent rfl rfl
  | observe s => exact h.answered_of_silent rfl rfl

/-- **A run that is cut off leaves a controller that is not at rest**, for its run state is running. -/
theorem Standing.not_atRest_of_breaks (h : c.Standing) {operation : Operation σ}
    (breaks : Breaks l c s operation) :
    (c.ask l s operation).result = true ∧ ¬ (c.ask l s operation).next.1.AtRest := by
  cases operation with
  | load | reset | singleStep | pause | setRate | observe => exact breaks.elim
  | run limit =>
    obtain ⟨violation, violated⟩ := breaks
    have running : (c.run l limit s).controller.runState = .running := by
      cases waiting : c.runState.isTerminal with
      | true =>
        rw [h.run_of_isTerminal waiting] at violated
        cases violated
      | false =>
        have ready := h.startable waiting
        rcases ready.run_outcome l s limit with ⟨time, proceeds⟩ | ⟨count, le, time, ends⟩ |
          ⟨_, _, stranded⟩
        · rw [run_of_proceeds ready time proceeds] at violated
          cases violated
        · rw [run_of_ends ready time ends le] at violated
          cases violated
        · exact stranded.runState
    refine ⟨?_, fun atRest => atRest.notRunning running⟩
    show (c.run l limit s).ending.isFinished = true
    rw [violated]
    rfl

/-- No operation leads out of the ranges, at whatever rate. -/
theorem inRange_ask (range : c.machine.state.InRange) (l : Listener σ) (s : σ) {operation : Operation σ}
    (loadable : operation.Loadable) : (c.ask l s operation).next.1.machine.state.InRange := by
  cases operation with
  | load p =>
    have fits : p.Loadable := loadable
    show (c.load p).next.machine.state.InRange
    cases running : c.running with
    | true =>
      rw [load, running]
      exact range
    | false =>
      rw [load_of_loadable running fits]
      dsimp only
      rw [Machine.load_next _ fits]
      exact fits.inRange
  | reset =>
    show c.reset.next.machine.state.InRange
    unfold reset
    split
    · exact range
    · exact State.inRange_zero
  | singleStep => exact (singleStep_follows (σ := σ) range).inRange range
  | run limit => exact (run_follows l s limit range).inRange range
  | setRate rate =>
    show ((c.setRate rate).toOption.getD c).machine.state.InRange
    unfold setRate
    split
    · exact range
    · exact range
  | pause | observe _ => exact range

/-! ### Calls at rates that can be represented -/

/-- At a rate that can be represented no run is cut off. -/
theorem Standing.not_breaks (h : c.Standing) (rate : Rate.IsRepresentable c.rate) (l : Listener σ)
    (s : σ) (operation : Operation σ) : ¬ Breaks l c s operation := by
  cases operation with
  | load | reset | singleStep | pause | setRate | observe => exact id
  | run limit =>
    rintro ⟨violation, violated⟩
    cases waiting : c.runState.isTerminal with
    | true =>
      rw [h.run_of_isTerminal waiting] at violated
      cases violated
    | false =>
      have ready := h.startable waiting
      rcases proceeds_or_ends l s c limit with proceeds | ⟨count, le, ends⟩
      · rw [run_of_proceeds ready (hasTime_of_isRepresentable rate limit) proceeds] at violated
        cases violated
      · rw [run_of_ends ready (hasTime_of_isRepresentable rate count) ends le] at violated
        cases violated

/-- An admissible operation leaves a rate that can be represented. -/
theorem isRepresentable_ask (rate : Rate.IsRepresentable c.rate) (l : Listener σ) (s : σ)
    {operation : Operation σ} (admissible : operation.Admissible) :
    Rate.IsRepresentable (c.ask l s operation).next.1.rate := by
  cases operation with
  | load p =>
    have same : (c.load p).next.rate = c.rate := by
      unfold load
      dsimp only
      split
      · rfl
      · split <;> rfl
    exact same ▸ rate
  | reset =>
    have same : c.reset.next.rate = c.rate := by
      unfold reset
      split <;> rfl
    exact same ▸ rate
  | singleStep => exact (rate_singleStep c).symm ▸ rate
  | run limit => exact (rate_run l limit c s).symm ▸ rate
  | pause | observe => exact rate
  | setRate new =>
    show Rate.IsRepresentable ((c.setRate new).toOption.getD c).rate
    unfold Controller.setRate
    cases accepted : Rate.isAccepted new with
    | true => exact admissible accepted
    | false => exact rate

/-! ### Calls in order -/

/-- A controller after calls, with the listener that follows them. -/
structure History (ι σ : Type) where
  controller : Controller ι
  listener : σ
  /-- The changes of the run state. -/
  changes : List Change
  /-- What became visible since the last load or reset. -/
  recent : Journal
  /-- Whether the last call is finished, so that something can be asked again. -/
  finished : Bool

namespace History

omit [InputSource ι] in
/-- A controller of a machine of which nothing was asked. -/
def new (input : ι) (s : σ) : History ι σ := ⟨.new (.new input), s, [], [], true⟩

/-- Asks for one thing more, unless the last call is not finished. -/
def perform (l : Listener σ) (h : History ι σ) (operation : Operation σ) : History ι σ :=
  if h.finished then
    let turn := h.controller.ask l h.listener operation
    { controller := turn.next.1
      listener := turn.next.2
      changes := h.changes ++ turn.journal.changes operation.restarts
      recent := if operation.restarts then turn.journal else h.recent ++ turn.journal
      finished := turn.result }
  else h

/-- Asks for things in order. -/
def performAll (l : Listener σ) (h : History ι σ) (operations : List (Operation σ)) : History ι σ :=
  operations.foldl (perform l) h

/-- No operations lead out of the ranges, at whatever rates. -/
theorem inRange_performAll {h : History ι σ} (range : h.controller.machine.state.InRange)
    {operations : List (Operation σ)} (loadable : ∀ operation ∈ operations, operation.Loadable) :
    (h.performAll l operations).controller.machine.state.InRange := by
  induction operations generalizing h with
  | nil => exact range
  | cons operation rest ih =>
    obtain ⟨hfirst, hrest⟩ := List.forall_mem_cons.1 loadable
    have hnext : (h.perform l operation).controller.machine.state.InRange := by
      unfold perform
      split
      · exact inRange_ask range l h.listener hfirst
      · exact range
    exact ih hnext hrest

/-- No run that is asked for is cut off by a violation. -/
def Unbroken (l : Listener σ) : History ι σ → List (Operation σ) → Prop
  | _, [] => True
  | h, operation :: rest =>
    (h.finished = true → ¬ Breaks l h.controller h.listener operation) ∧
      Unbroken l (h.perform l operation) rest

/-- What holds of a controller of which no run was cut off. -/
structure Kept (h : History ι σ) : Prop where
  leads : Leads .ready h.changes h.controller.runState
  counts : h.recent.Counts 0 h.controller.cycles
  standing : h.finished = true → h.controller.Standing

omit [InputSource ι] in
/-- It holds of a controller of which nothing was asked. -/
theorem kept_new (input : ι) (s : σ) : (new input s).Kept where
  leads := rfl
  counts := .of_silent rfl 0
  standing _ := standing_new input

/-- Every call keeps it up that is no run which is cut off. -/
theorem Kept.perform {h : History ι σ} (kept : h.Kept) {operation : Operation σ}
    (loadable : operation.Loadable)
    (sound : h.finished = true → ¬ Breaks l h.controller h.listener operation) :
    (h.perform l operation).Kept := by
  unfold History.perform
  cases finished : h.finished with
  | false => exact kept
  | true =>
    have answer := (kept.standing finished).answered loadable (sound finished)
    refine ⟨kept.leads.append answer.leads, ?_, answer.standing⟩
    have hcounts := answer.counts
    cases restarts : operation.restarts with
    | true =>
      rw [restarts] at hcounts
      exact hcounts
    | false =>
      rw [restarts] at hcounts
      exact kept.counts.append hcounts

/-- Calls of which none is cut off keep it up. -/
theorem kept_performAll {h : History ι σ} (kept : h.Kept) {operations : List (Operation σ)}
    (loadable : ∀ operation ∈ operations, operation.Loadable) (unbroken : h.Unbroken l operations) :
    (h.performAll l operations).Kept := by
  induction operations generalizing h with
  | nil => exact kept
  | cons operation rest ih =>
    obtain ⟨hfirst, hrest⟩ := List.forall_mem_cons.1 loadable
    exact ih (kept.perform hfirst unbroken.1) hrest unbroken.2

/-- Of calls of which none is cut off, none is among the first ones. -/
theorem Unbroken.of_prefix {h : History ι σ} {earlier operations : List (Operation σ)}
    (first : earlier <+: operations) (unbroken : h.Unbroken l operations) :
    h.Unbroken l earlier := by
  induction earlier generalizing h operations with
  | nil => trivial
  | cons operation rest ih =>
    obtain ⟨later, rfl⟩ := first
    exact ⟨unbroken.1, ih (List.prefix_append rest later) unbroken.2⟩

/-- At rates that can be represented no call is cut off. -/
theorem unbroken_of_admissible {h : History ι σ} (kept : h.Kept)
    (rate : Rate.IsRepresentable h.controller.rate) {operations : List (Operation σ)}
    (admissible : ∀ operation ∈ operations, operation.Admissible) : h.Unbroken l operations := by
  induction operations generalizing h with
  | nil => trivial
  | cons operation rest ih =>
    obtain ⟨hfirst, hrest⟩ := List.forall_mem_cons.1 admissible
    have sound : h.finished = true → ¬ Breaks l h.controller h.listener operation :=
      fun finished => (kept.standing finished).not_breaks rate l h.listener operation
    refine ⟨sound, ih (kept.perform hfirst.loadable sound) ?_ hrest⟩
    unfold History.perform
    split
    · exact isRepresentable_ask rate l h.listener hfirst
    · exact rate

/-- A history throughout which the controller tells what is the case: the run state is the one that was
told last, it moves as it may, the cycles since the last load or reset are numbered from 1 on, and between
two calls the controller is at rest. -/
structure Truthful (h : History ι σ) : Prop where
  last : h.controller.runState = (h.changes.map Change.state).getLastD .ready
  moves : h.changes.IsChain Change.MayFollow
  cycles : h.recent.cycleNumbers = List.range' 1 h.controller.cycles
  atRest : h.finished = true → h.controller.AtRest

omit [InputSource ι] in
/-- A controller of which no run was cut off tells what is the case. -/
theorem Kept.truthful {h : History ι σ} (kept : h.Kept) : h.Truthful where
  last := kept.leads.last.symm
  moves := kept.leads.isChain
  cycles := kept.counts.numbers
  atRest finished := (kept.standing finished).atRest

/-- A controller that tells what is the case after every call was never cut off. -/
theorem unbroken_of_truthful {h : History ι σ} (kept : h.Kept) {operations : List (Operation σ)}
    (loadable : ∀ operation ∈ operations, operation.Loadable)
    (truthful : ∀ earlier, earlier <+: operations → (h.performAll l earlier).Truthful) :
    h.Unbroken l operations := by
  induction operations generalizing h with
  | nil => trivial
  | cons operation rest ih =>
    obtain ⟨hfirst, hrest⟩ := List.forall_mem_cons.1 loadable
    have sound : h.finished = true → ¬ Breaks l h.controller h.listener operation := by
      intro finished breaks
      obtain ⟨ends, restless⟩ := (kept.standing finished).not_atRest_of_breaks breaks
      have after : (h.perform l operation).Truthful := truthful [operation] (List.prefix_append _ rest)
      unfold History.perform at after
      rw [finished] at after
      exact restless (after.atRest ends)
    refine ⟨sound, ih (kept.perform hfirst sound) hrest fun earlier first => ?_⟩
    exact truthful (operation :: earlier) (List.prefix_cons_inj operation |>.2 first)

/-- **A controller tells what is the case exactly as long as no run is cut off**, whatever is asked of it, at
which rates, and whenever its observers ask for a pause. If every rate that is set can be represented, no run
is. -/
theorem truthful_performAll (l : Listener σ) (input : ι) (s : σ) (operations : List (Operation σ))
    (loadable : ∀ operation ∈ operations, operation.Loadable) :
    ((∀ earlier, earlier <+: operations → ((new input s).performAll l earlier).Truthful) ↔
        (new input s).Unbroken l operations) ∧
      ((∀ operation ∈ operations, operation.Admissible) → (new input s).Unbroken l operations) := by
  refine ⟨⟨unbroken_of_truthful (kept_new input s) loadable, fun unbroken earlier first => ?_⟩,
    unbroken_of_admissible (kept_new input s) Rate.isRepresentable_standard⟩
  have fits : ∀ operation ∈ earlier, operation.Loadable :=
    fun operation member => loadable operation (first.subset member)
  exact (kept_performAll (kept_new input s) fits (unbroken.of_prefix first)).truthful

/-- Single steps, runs that are paused after each cycle, another rate and a reset. -/
def echoed : List (Operation Unit) :=
  [.load echo, .singleStep, .run 10, .pause, .setRate 2.5, .run 10, .run 10, .reset]

/-- The history of these calls on a machine for which 7 waits to be read. -/
def echoedOnce : History (List Int) Unit := (new [7] ()).performAll pausing echoed

/-- The second run halts in the cycle in which it is paused, and the third one finds it halted. -/
theorem truthful_echoed :
    (∀ operation ∈ echoed, operation.Loadable) ∧ (∀ operation ∈ echoed, operation.Admissible) ∧
      echoedOnce.Truthful ∧ echoedOnce.finished = true ∧
      echoedOnce.changes =
        [⟨.ready, true⟩, ⟨.running, false⟩, ⟨.ready, false⟩, ⟨.running, false⟩, ⟨.halted, false⟩,
          ⟨.ready, true⟩] := by
  have loadable : ∀ operation ∈ echoed, operation.Loadable := by decide +kernel
  have admissible : ∀ operation ∈ echoed, operation.Admissible := by decide +kernel
  obtain ⟨truthful, unbroken⟩ := truthful_performAll pausing ([7] : List Int) () echoed loadable
  exact ⟨loadable, admissible, truthful.2 (unbroken admissible) echoed List.prefix_rfl,
    by decide +kernel, by decide +kernel⟩

/-- A run of two cycles at a rate of one cycle in `10^19` seconds. -/
def crawl : List (Operation Unit) := [.setRate 1e-19, .load (.ofWords [400, 0]), .run 10]

/-- The history of these calls, with a listener that asks for a pause or does not. -/
def crawled (l : Listener Unit) : History (List Int) Unit := (new [] ()).performAll l crawl

/-- **An interval that has a duration can still be too long for a run.** The moment of the next cycle is too
late, the first cycle is followed by none, and the controller says that it is running when it is not.
Only a pause that was asked for in that cycle clears the run flag. -/
theorem crawl_untruthful :
    (∀ operation ∈ crawl, operation.Loadable) ∧ Rate.isAccepted 1e-19 = true ∧
      Rate.hasDuration 1e-19 = true ∧ (crawled attending).finished = true ∧
      (crawled attending).controller.running = true ∧
      (crawled attending).controller.runState = .running ∧
      (crawled attending).controller.machine.stop = none ∧ ¬ (crawled attending).Truthful ∧
      (crawled pausing).finished = true ∧ (crawled pausing).controller.running = false ∧
      (crawled pausing).controller.runState = .running ∧ ¬ (crawled pausing).Truthful := by
  have ends : (crawled attending).finished = true ∧ (crawled pausing).finished = true := by
    decide +kernel
  have attended : (crawled attending).controller.runState = .running := by decide +kernel
  have paused : (crawled pausing).controller.runState = .running := by decide +kernel
  refine ⟨by decide, by decide +kernel, by decide +kernel, ends.1, by decide +kernel, attended,
    by decide +kernel, fun truthful => ?_, ends.2, by decide +kernel, paused, fun truthful => ?_⟩
  · exact (truthful.atRest ends.1).notRunning attended
  · exact (truthful.atRest ends.2).notRunning paused

end History
end Controller
end DecimalMachine
