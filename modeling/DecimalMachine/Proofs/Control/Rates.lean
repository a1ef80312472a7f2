/-
# Runs at every accepted rate

A rate is accepted if it is finite and positive, and only a run finds out whether the time between two cycles
can be represented. It does so after the run flag is set and the run state has changed to running, so that a
run at a rate that is too small leaves both behind:

| interval | the run |
| --- | --- |
| less than `2^63` seconds | returns |
| less than `2^64` seconds | returns if no cycle goes on: after a pause at the start, or a stop in the first |
| | cycle; otherwise it is a violation after the first cycle |
| `2^64` seconds or more | is a violation before the first cycle |

A run that returns is orderly: the run flag is clear, the run state is not running, and the controller does what
it is asked for. After a violation the run state is running, and the run flag is still set unless a pause was
asked for before, so that the controller refuses every call as if a run were going on.
-/

import DecimalMachine.Proofs.Control.Calls
import DecimalMachine.Proofs.Control.Ending

namespace DecimalMachine
namespace Controller

variable {ι σ : Type} [InputSource ι] {c : Controller ι}

/-! ### Controllers that refuse -/

/-- A controller that refuses no call because of a run. -/
structure IsFree (c : Controller ι) : Prop where
  load : ∀ p, (c.load p).result ≠ .error .busy
  reset : c.reset.result ≠ .error .busy
  singleStep : c.singleStep.result ≠ .error .busy

/-- A controller that refuses every call because of a run. -/
structure IsBusy (c : Controller ι) : Prop where
  load : ∀ p, (c.load p).result = .error .busy
  reset : c.reset.result = .error .busy
  singleStep : c.singleStep.result = .error .busy

/-- Between two calls nothing is refused. -/
theorem isFree_of_idle (idle : c.running = false) : c.IsFree where
  load p := by
    unfold load
    dsimp only
    rw [idle, if_neg Bool.false_ne_true]
    split <;> exact nofun
  reset := by
    rw [reset_of_idle idle]
    exact nofun
  singleStep := by
    rw [singleStep_of_idle idle]
    cases c.cycle.result <;> exact nofun

/-- While the run flag is set everything is refused. -/
theorem isBusy_of_running (running : c.running = true) : c.IsBusy where
  load p := by rw [load, if_pos running]
  reset := by rw [reset, if_pos running]
  singleStep := by rw [singleStep, if_pos running]

/-! ### How runs end -/

/-- A run that returned and left a controller that can be used again. -/
structure Run.IsOrderly (run : Run ι σ) : Prop where
  returned : ∃ state, run.ending = .returned state
  clear : run.controller.running = false
  runState : run.controller.runState ≠ .running
  free : run.controller.IsFree

/-- A run that ended as a violation and left its controller as if it were going on. The run flag is clear only if
a pause was asked for. -/
structure Run.IsStranded (run : Run ι σ) (violation : Violation) (asked : Bool) : Prop where
  violated : run.ending = .violated violation
  runState : run.controller.runState = .running
  running : run.controller.running = !asked
  busy : asked = false → run.controller.IsBusy

variable {l : Listener σ} {s : σ} {count : Nat}

section Loaded

variable (range : c.machine.state.InRange) (going : c.machine.isStopped = false)

include range going

/-- **A run that concludes is orderly.** -/
theorem isOrderly_concluded (l : Listener σ) (s : σ) (count : Nat) :
    (concluded l s c count).IsOrderly := by
  obtain ⟨hclear, -⟩ := frame_finish (c.underway count).next
  obtain ⟨hstate, -⟩ := runStates_completed range going count
  have hsettled : (concluded l s c count).controller.runState =
      .settled (c.underway count).next.machine.stop := hstate
  refine ⟨⟨_, rfl⟩, hclear, ?_, isFree_of_idle hclear⟩
  rw [hsettled]
  exact RunState.settled_ne_running _

/-- **A run that is cut off while its machine goes on is stranded.** -/
theorem isStranded_underway (next : (c.underway count).next.machine.isStopped = false)
    (l : Listener σ) (s : σ) (violation : Violation) :
    Run.IsStranded
      ⟨(announce l s (c.underway count)).1, (announce l s (c.underway count)).2, .violated violation⟩
      violation (l.asks s (c.underway count).journal) := by
  have hrunning : (announce l s (c.underway count)).1.running =
      !l.asks s (c.underway count).journal := by
    unfold announce
    rw [running_underway c count]
    exact l.deliver_fst s _
  obtain ⟨hstate, -⟩ := runStates_underway range going count
  rw [next] at hstate
  refine ⟨rfl, hstate, hrunning, fun quiet => ?_⟩
  rw [quiet] at hrunning
  exact isBusy_of_running hrunning

end Loaded

section Startable

variable (ready : c.Startable)

include ready

/-- Without a duration a run is stranded before its first cycle. -/
theorem Startable.isStranded_of_not_hasDuration (long : Rate.hasDuration c.rate = false)
    (l : Listener σ) (s : σ) (limit : Nat) :
    (c.run l limit s).IsStranded .intervalTooLong (l.asks s (c.underway 0).journal) := by
  have start : (c.underway 0).next.machine.isStopped = false := ready.going
  rw [run_of_not_hasDuration ready long]
  exact isStranded_underway ready.range ready.going start l s .intervalTooLong

/-- Without a deadline a run is stranded after its first cycle, if this cycle goes on. -/
theorem Startable.isStranded_of_not_hasDeadline (short : Rate.hasDuration c.rate = true)
    (late : Rate.hasDeadline c.rate = false) (start : Proceeds l s c 0)
    (next : c.machine.step.next.isStopped = false) (limit : Nat) :
    (c.run l (limit + 1) s).IsStranded .deadlineTooLate (l.asks s (c.underway 1).journal) := by
  have first : (c.underway 1).next.machine = c.machine.step.next := machine_underway ready.range 1
  rw [run_of_not_hasDeadline ready short late start, next]
  rw [← first] at next
  exact isStranded_underway ready.range ready.going next l s .deadlineTooLate

/-- **A run that has no time for its cycles is stranded.** -/
theorem Startable.isStranded_of_not_hasTime (late : ¬ c.HasTime count)
    (start : count ≠ 0 → Proceeds l s c 0) {limit : Nat} (le : count ≤ limit) :
    ∃ violation asked, (c.run l limit s).IsStranded violation asked := by
  cases short : Rate.hasDuration c.rate with
  | false => exact ⟨_, _, ready.isStranded_of_not_hasDuration short l s limit⟩
  | true =>
    -- Only a deadline after a first cycle that goes on can be missing.
    have missing : count ≠ 0 ∧ c.machine.step.next.isStopped = false ∧
        Rate.hasDeadline c.rate = false := by
      by_contra! present
      refine late ⟨short, fun some next => ?_⟩
      exact Bool.not_eq_false _ ▸ present some next
    obtain ⟨some, next, missed⟩ := missing
    obtain ⟨left, rfl⟩ := Nat.exists_eq_succ_of_ne_zero (n := limit) (by omega)
    exact ⟨_, _, ready.isStranded_of_not_hasDeadline short missed (start some) next left⟩

/-- **A run has time for its cycles, or it is stranded**: it is unfinished at its limit, it ends, or it is cut
off. -/
theorem Startable.run_outcome (l : Listener σ) (s : σ) (limit : Nat) :
    (c.HasTime limit ∧ Proceeds l s c limit) ∨
      (∃ count ≤ limit, c.HasTime count ∧ Ends l s c count) ∨
        ∃ violation asked, (c.run l limit s).IsStranded violation asked := by
  rcases proceeds_or_ends l s c limit with proceeds | ⟨count, le, ends⟩
  · by_cases time : c.HasTime limit
    · exact .inl ⟨time, proceeds⟩
    · have start : Proceeds l s c 0 := proceeds.of_le (Nat.zero_le limit)
      exact .inr (.inr (ready.isStranded_of_not_hasTime time (fun _ => start) le_rfl))
  · by_cases time : c.HasTime count
    · exact .inr (.inl ⟨count, le, time, ends⟩)
    · have start (some : count ≠ 0) : Proceeds l s c 0 := ends.before 0 (Nat.pos_of_ne_zero some)
      exact .inr (.inr (ready.isStranded_of_not_hasTime time start le))

end Startable

/-! ### The rate stays -/

/-- A run that was started leaves the rate as it is. The induction is along the run. -/
theorem rate_runFrom (l : Listener σ) (limit : Nat) (c : Controller ι) (s : σ) :
    (runFrom l limit c s).controller.rate = c.rate := by
  have concluding (next : Controller ι) (t : σ) : (conclude l next t).controller.rate = next.rate :=
    (frame_finish next).2.2.1
  have cycling {c next : Controller ι} {s t : σ} (heard : announce l s c.cycle = (next, t)) :
      next.rate = c.rate := by
    have same : (announce l s c.cycle).1.rate = c.rate := (frame_cycle c).2
    rwa [heard] at same
  fun_induction runFrom l limit c s with
  | case1 c s busy => rfl
  | case2 c s busy limit turn next t heard violation result => exact cycling heard
  | case3 c s busy limit turn next t heard result =>
    rw [concluding]
    exact cycling heard
  | case4 c s busy limit turn next t heard result deadline ih =>
    rw [ih]
    exact cycling heard
  | case5 c s busy limit turn next t heard result late => exact cycling heard
  | case6 limit c s idle => exact concluding c s

/-- A run leaves the rate as it is, however it ends. -/
theorem rate_run (l : Listener σ) (limit : Nat) (c : Controller ι) (s : σ) :
    (run l limit c s).controller.rate = c.rate := by
  unfold run
  split
  · rfl
  · split
    · rfl
    · dsimp only
      split
      · rw [rate_runFrom]
        rfl
      · rfl

/-! ### After a load, at every accepted rate -/

omit [InputSource ι] in
/-- A controller that was given a rate and loaded can start a run. -/
theorem loaded_of_setRate {d : Controller ι} (idle : c.running = false) {rate : Float}
    (set : c.setRate rate = .ok d) {p : Program} (fits : p.Loadable) :
    (d.load p).next =
      { c with
        machine := ⟨p.loadedState, p, none, c.machine.input, fits.extent_le⟩
        runState := .ready
        cycles := 0
        rate := rate } := by
  unfold setRate at set
  split at set
  · cases set
    have loaded := congrArg Turn.next (load_of_loadable (c := { c with rate := rate }) idle fits)
    rw [← c.machine.load_next fits]
    exact loaded
  · cases set

/-- **What a run comes to at a rate that was accepted.** An idle controller is given the rate and a program that
fits, and its listener asks for pauses so that the run ends after `count` cycles.

* If the interval and the moment of the next cycle can be represented, the run is orderly.
* If the interval cannot be represented, the run is stranded before its first cycle.
* If only the moment cannot be represented, the run is orderly if a pause is asked for at the start, or the
  first cycle stops the machine, and it is stranded after the first cycle otherwise. -/
theorem run_of_accepted_rate {d : Controller ι} (idle : c.running = false) {rate : Float}
    (set : c.setRate rate = .ok d) {p : Program} (fits : p.Loadable) (l : Listener σ) (s : σ)
    (count : Nat) (ends : Ends l s (d.load p).next count) (limit : Nat) (le : count ≤ limit) :
    let loaded := (d.load p).next
    let run := loaded.run l limit s
    (Rate.IsRepresentable rate → run.IsOrderly) ∧
      (Rate.hasDuration rate = false →
        run.IsStranded .intervalTooLong (l.asks s (loaded.underway 0).journal)) ∧
      (Rate.hasDuration rate = true → Rate.hasDeadline rate = false →
        (count = 0 ∨ loaded.machine.step.next.isStopped = true → run.IsOrderly) ∧
        (count ≠ 0 → loaded.machine.step.next.isStopped = false →
          run.IsStranded .deadlineTooLate (l.asks s (loaded.underway 1).journal))) := by
  intro loaded run
  have hloaded : loaded = { c with
      machine := ⟨p.loadedState, p, none, c.machine.input, fits.extent_le⟩
      runState := .ready
      cycles := 0
      rate := rate } := loaded_of_setRate idle set fits
  have range : loaded.machine.state.InRange := by
    rw [hloaded]
    exact fits.inRange
  have going : loaded.machine.isStopped = false := by
    rw [hloaded]
    rfl
  have still : loaded.running = false := by
    rw [hloaded]
    exact idle
  have waiting : loaded.runState.isTerminal = false := by
    rw [hloaded]
    rfl
  have hrate : loaded.rate = rate := by rw [hloaded]
  have ready : loaded.Startable := ⟨still, waiting, going, range⟩
  rw [← hrate]
  refine ⟨fun representable => ?_, fun long => ?_, fun short late => ⟨?_, ?_⟩⟩
  · have time := hasTime_of_isRepresentable representable count
    have hrun : run = concluded l s loaded count := run_of_ends ready time ends le
    rw [hrun]
    exact isOrderly_concluded range going l s count
  · exact ready.isStranded_of_not_hasDuration long l s limit
  · intro early
    have time : loaded.HasTime count := by
      refine ⟨short, fun some next => ?_⟩
      have stops := early.resolve_left some
      rw [next] at stops
      cases stops
    have hrun : run = concluded l s loaded count := run_of_ends ready time ends le
    rw [hrun]
    exact isOrderly_concluded range going l s count
  · intro some next
    have start := ends.before 0 (Nat.pos_of_ne_zero some)
    obtain ⟨left, rfl⟩ := Nat.exists_eq_succ_of_ne_zero (n := limit) (by omega)
    exact ready.isStranded_of_not_hasDeadline short late start next left

/-- The controller of a machine for which 7 waits, at a rate of one cycle in `10^19` seconds. -/
def crawling : Controller (List Int) := { new sevenWaiting with rate := 1e-19 }

/-- A pause after the first cycle of the program that puts out what it reads comes too late. -/
theorem run_of_accepted_rate_crawling :
    (new sevenWaiting).running = false ∧ (new sevenWaiting).setRate 1e-19 = .ok crawling ∧
      echo.Loadable ∧ Ends pausing () (crawling.load echo).next 1 ∧
      ((crawling.load echo).next.run pausing 10 ()).IsStranded .deadlineTooLate true := by
  have set : (new sevenWaiting).setRate 1e-19 = .ok crawling := if_pos (by decide +kernel)
  have fits : echo.Loadable := by decide
  have asked : pausing.asks () ((crawling.load echo).next.underway 1).journal = true := by
    decide +kernel
  have ends : Ends pausing () (crawling.load echo).next 1 := by
    refine ⟨fun earlier lt => ?_, fun proceeds => ?_⟩
    · obtain rfl : earlier = 0 := by omega
      exact ⟨by decide +kernel, by decide +kernel⟩
    · exact Bool.false_ne_true (proceeds.quiet.symm.trans asked)
  have run := run_of_accepted_rate rfl set fits pausing () 1 ends 10 (by decide)
  have stranded := (run.2.2 (by decide +kernel) (by decide +kernel)).2 (by decide) (by decide +kernel)
  rw [asked] at stranded
  exact ⟨rfl, set, fits, ends, stranded⟩

/-- The controller of a machine that halts in its first cycle, at a rate of one cycle in `10^20` seconds. -/
def stalled : Controller (List Int) :=
  ({ new (.new []) with rate := 1e-20 }.load (.ofWords [0])).next

/-- **Not every accepted rate can be run.** At a rate that is accepted a run for which no pause is asked, of a
program that fits and halts in its first cycle, is a violation; afterwards the run state is running, and
the controller refuses to load, to reset and to step. -/
theorem accepted_rate_strands_run :
    (new (.new ([] : List Int))).setRate 1e-20 = .ok { new (.new []) with rate := 1e-20 } ∧
      (Program.ofWords [0]).Loadable ∧ Ends attending () stalled 1 ∧
      (stalled.run attending 1 ()).ending = .violated .intervalTooLong ∧
      (stalled.run attending 1 ()).controller.runState = .running ∧
      (stalled.run attending 1 ()).controller.running = true ∧
      (stalled.run attending 1 ()).controller.IsBusy := by
  have ends : Ends attending () stalled 1 := by
    refine ⟨fun earlier lt => ?_, fun proceeds => ?_⟩
    · obtain rfl : earlier = 0 := by omega
      exact ⟨by decide +kernel, by decide +kernel⟩
    · have stopped : (stalled.underway 1).next.machine.isStopped = true := by decide +kernel
      exact Bool.false_ne_true (proceeds.going.symm.trans stopped)
  have running : (stalled.run attending 1 ()).controller.running = true := by decide +kernel
  exact ⟨if_pos (by decide +kernel), by decide, ends, by decide +kernel, by decide +kernel, running,
    isBusy_of_running running⟩

end Controller
end DecimalMachine
