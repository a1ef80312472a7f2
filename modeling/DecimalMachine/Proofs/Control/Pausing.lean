/-
# Pauses

A listener asks for a pause at any events of a run, and what counts is the first event at which it does:

| the first request comes | the run returns |
| --- | --- |
| while the run state changes to running | ready, after no cycle |
| during a cycle that does not stop the machine | ready, after that cycle |
| during the cycle that stops the machine | halted or errored, after that cycle |
| never | halted or errored, after the cycle that stops the machine, if there is one |

Up to the first request the listener sees the run flag set, and afterwards it sees it clear. A pause that
is asked for while no run is going on changes nothing.

All this takes a run that has time for its cycles. A run that has none does not return: it is stranded, with the
run state running, before its first cycle or after it, and a request that comes in that cycle comes too late.
-/

import DecimalMachine.Proofs.Control.Reporting

namespace DecimalMachine
namespace Controller

variable {ι σ : Type} [InputSource ι] {c : Controller ι} {l : Listener σ} {s : σ} {count : Nat}

/-- The listener first asks for a pause at the event `e` of cycle `count`, or of the change to running if
`count` is 0. Up to the end of that cycle the run tells `before`, the event, and `after`. -/
structure FirstPause (l : Listener σ) (s : σ) (c : Controller ι) (count : Nat) (before : Journal)
    (e : Event) (after : Journal) : Prop where
  reached : ∀ earlier < count, Proceeds l s c earlier
  request : l.FirstRequest s before e after (c.underway count).journal

/-- A run that executed `count` cycles and returned as the machine then stands: it tells of no other run
state than that one after the change to running, and the run flag is clear. -/
structure Returns (c : Controller ι) (count : Nat) (journal : Journal) (run : Run ι σ) : Prop where
  executed : ∀ earlier < count, (c.machine.steps earlier).next.isStopped = false
  follows : c.Follows count journal run.controller
  ending : run.ending = .returned (.settled run.controller.machine.stop)
  runState : run.controller.runState = .settled run.controller.machine.stop
  states : journal.runStates = [.running, .settled run.controller.machine.stop]
  clear : run.controller.running = false

/-- A run with a request for a pause returns after the cycle of the request. The listener saw the run flag
set up to the request and clear from then on, whatever the run still told. -/
structure Paused (l : Listener σ) (s : σ) (c : Controller ι) (limit count : Nat) (before : Journal)
    (e : Event) (after : Journal) : Prop where
  returns : Returns c count (c.runJournal l limit s) (c.run l limit s)
  heard : ∃ rest, l.FirstRequest s before e (after ++ rest) (c.runJournal l limit s) ∧
    (c.run l limit s).listener =
      l.hearAll false (l.hearAll true s (before ++ [.event e])) (after ++ rest)

/-- A run without a request for a pause goes on until its machine stops. The listener always saw the run
flag set. -/
structure Unpaused (l : Listener σ) (s : σ) (c : Controller ι) (limit : Nat) : Prop where
  goesOn : (c.machine.steps limit).next.isStopped = false →
    (c.run l limit s).ending = .unfinished ∧
      c.Follows limit (c.runJournal l limit s) (c.run l limit s).controller
  returns : ∀ count ≤ limit, (∀ earlier < count, (c.machine.steps earlier).next.isStopped = false) →
    (c.machine.steps count).next.isStopped = true →
      Returns c count (c.runJournal l limit s) (c.run l limit s)
  heard : (c.run l limit s).listener = l.hearAll true s (c.runJournal l limit s)

/-! ### Runs that are paused -/

/-- A run ends with the cycle in which a pause is first asked for. -/
theorem FirstPause.ends {before after : Journal} {e : Event}
    (pause : FirstPause l s c count before e after) : Ends l s c count where
  before := pause.reached
  ends proceeds := by
    have hquiet := proceeds.quiet
    rw [pause.request.asks] at hquiet
    cases hquiet

section Startable

variable (ready : c.Startable)

include ready

/-- **A run that ends returns** as the machine then stands. -/
theorem Startable.returns_of_ends (time : c.HasTime count) (ends : Ends l s c count) {limit : Nat}
    (le : count ≤ limit) :
    Returns c count (c.runJournal l limit s) (c.run l limit s) := by
  obtain ⟨hstate, hstates⟩ := runStates_completed ready.range ready.going count
  obtain ⟨hclear, hmachine, -⟩ := frame_finish (c.underway count).next
  have hstop : (c.completed count).next.machine.stop = (c.underway count).next.machine.stop :=
    congrArg Machine.stop hmachine
  rw [← hstop] at hstate hstates
  rw [runJournal_of_ends ready time ends le, run_of_ends ready time ends le]
  refine ⟨fun earlier lt => ?_, completed_follows ready.range count, ?_, hstate, hstates, hclear⟩
  · rw [← machine_underway ready.range]
    exact (ends.before earlier lt).going
  · exact congrArg RunEnding.returned hstate

/-- **A pause ends a run after its cycle.** At its end the run may still tell that it is ready, which the
listener hears with the run flag clear. -/
theorem Startable.paused (time : c.HasTime count) {before after : Journal} {e : Event}
    (pause : FirstPause l s c count before e after) {limit : Nat} (le : count ≤ limit) :
    Paused l s c limit count before e after where
  returns := ready.returns_of_ends time pause.ends le
  heard := by
    have hrequest := pause.request
    refine ⟨(c.underway count).next.finish.journal, ⟨?_, hrequest.quiet, hrequest.asked⟩, ?_⟩
    · rw [runJournal_of_ends ready time pause.ends le]
      unfold completed
      dsimp only
      rw [hrequest.parts, List.append_assoc, List.cons_append]
    · rw [run_of_ends ready time pause.ends le]
      unfold concluded
      dsimp only
      rw [hrequest.deliver]
      exact (l.hearAll_append _ false after _).symm

/-! ### Runs that are not paused -/

/-- A run that stopped its machine has nothing to tell at its end. -/
theorem Startable.finish_of_isStopped (stopped : (c.underway count).next.machine.isStopped = true) :
    (c.underway count).next.finish.journal = [] := by
  obtain ⟨hstate, -⟩ := runStates_underway ready.range ready.going count
  rw [stopped, if_pos rfl] at hstate
  unfold finish
  rw [hstate, if_neg (RunState.settled_ne_running _)]

/-- **Without a pause a run goes on** until its machine stops. -/
theorem Startable.unpaused {limit : Nat} (time : c.HasTime limit)
    (quiet : ∀ count, l.asks s (c.underway count).journal = false) : Unpaused l s c limit where
  goesOn going := by
    rw [← machine_underway ready.range] at going
    have proceeds : Proceeds l s c limit := ⟨quiet limit, going⟩
    rw [runJournal_of_proceeds ready time proceeds, run_of_proceeds ready time proceeds]
    exact ⟨rfl, underway_follows ready.range limit⟩
  returns count le going stopped := by
    refine ready.returns_of_ends (time.mono le)
      ⟨fun earlier lt => ⟨quiet earlier, ?_⟩, fun proceeds => ?_⟩ le
    · rw [machine_underway ready.range]
      exact going earlier lt
    · have hgoing := proceeds.going
      rw [machine_underway ready.range, stopped] at hgoing
      cases hgoing
  heard := by
    rcases proceeds_or_ends l s c limit with proceeds | ⟨count, le, ends⟩
    · rw [runJournal_of_proceeds ready time proceeds, run_of_proceeds ready time proceeds]
    · have stopped : (c.underway count).next.machine.isStopped = true := by
        by_contra going
        exact ends.ends ⟨quiet count, Bool.not_eq_true _ ▸ going⟩
      have hfinish := ready.finish_of_isStopped stopped
      have before := time.mono le
      rw [runJournal_of_ends ready before ends le, run_of_ends ready before ends le]
      unfold concluded completed
      dsimp only
      rw [hfinish, List.append_nil, l.deliver_of_quiet s (quiet count)]
      rfl

end Startable

/-! ### All runs -/

/-- **A run is paused, or it is not.** A request comes before the machine stops, for a stopped machine
tells nothing. -/
theorem exists_firstPause_or_quiet (l : Listener σ) (s : σ) (c : Controller ι) :
    (∃ count before e after, FirstPause l s c count before e after) ∨
      ∀ count, l.asks s (c.underway count).journal = false := by
  classical
  by_cases asked : ∃ count, l.asks s (c.underway count).journal = true
  · obtain ⟨before, e, after, request⟩ := l.exists_firstRequest s (Nat.find_spec asked)
    refine .inl ⟨Nat.find asked, before, e, after, fun earlier lt => ?_, request⟩
    have hquiet : l.asks s (c.underway earlier).journal = false :=
      Bool.not_eq_true _ ▸ Nat.find_min asked lt
    refine ⟨hquiet, ?_⟩
    by_contra stopped
    rw [Bool.not_eq_false] at stopped
    obtain ⟨more, hmore⟩ := Nat.exists_eq_add_of_lt lt
    have hsame := (underway_of_isStopped stopped (more + 1)).2
    have hasked := Nat.find_spec asked
    rw [hmore, Nat.add_assoc, hsame, hquiet] at hasked
    cases hasked
  · rw [not_exists] at asked
    exact .inr fun count => Bool.not_eq_true _ ▸ asked count

/-- A controller of a new machine can start a run whatever was asked of it, unless a run is going on or the run
state is terminal. -/
theorem startable_performAll {τ : Type} {observers : Listener τ} {input : ι} {t : τ}
    {operations : List (Operation τ)} (loadable : ∀ operation ∈ operations, operation.Loadable)
    (reached : ((History.new input t).performAll observers operations).controller = c)
    (idle : c.running = false) (waiting : c.runState.isTerminal = false) : c.Startable := by
  have range : c.machine.state.InRange := by
    rw [← reached]
    exact History.inRange_performAll State.inRange_zero loadable
  have faithful : c.Faithful := by
    rw [← reached]
    exact History.faithful_performAll input t loadable
  exact ⟨idle, waiting, faithful.reports.isTerminal.symm.trans waiting, range⟩

/-- **A pause takes effect at the end of the cycle in which it is first asked for**, and never hides that
the machine stopped. This holds of every controller that is idle and whose run state is not terminal, after any
operations at any rates, and for every listener of the next run, as long as the run has time for its cycles.
A run that has none is stranded instead. -/
theorem pauses_after_cycle {τ : Type} (observers : Listener τ) (input : ι) (t : τ)
    (operations : List (Operation τ)) (loadable : ∀ operation ∈ operations, operation.Loadable)
    {c : Controller ι}
    (reached : ((History.new input t).performAll observers operations).controller = c)
    (idle : c.running = false) (waiting : c.runState.isTerminal = false) (l : Listener σ) (s : σ) :
    c.pause = c ∧
      (∀ count before e after, FirstPause l s c count before e after → ∀ limit ≥ count,
        (c.HasTime count → Paused l s c limit count before e after) ∧
          (¬ c.HasTime count →
            ∃ violation asked, (c.run l limit s).IsStranded violation asked)) ∧
      (∀ before e after, FirstPause l s c 0 before e after → c.HasTime 0 →
        ∀ limit, (c.run l limit s).ending = .returned .ready) ∧
      ((∀ count, l.asks s (c.underway count).journal = false) → ∀ limit,
        (c.HasTime limit → Unpaused l s c limit) ∧
          (¬ c.HasTime limit →
            ∃ violation asked, (c.run l limit s).IsStranded violation asked)) ∧
      ((∃ count before e after, FirstPause l s c count before e after) ∨
        ∀ count, l.asks s (c.underway count).journal = false) := by
  have ready := startable_performAll loadable reached idle waiting
  refine ⟨pause_of_idle idle, ?_, ?_, ?_, exists_firstPause_or_quiet l s c⟩
  · intro count before e after pause limit le
    have start (some : count ≠ 0) : Proceeds l s c 0 := pause.reached 0 (Nat.pos_of_ne_zero some)
    exact ⟨fun time => ready.paused time pause le,
      fun late => ready.isStranded_of_not_hasTime late start le⟩
  · intro before e after pause time limit
    have hreturns := (ready.paused time pause (Nat.zero_le limit)).returns
    have hmachine : (c.run l limit s).controller.machine = c.machine := hreturns.follows.machine
    rw [hreturns.ending, hmachine, Machine.stop_eq_none ready.going]
    rfl
  · intro quiet limit
    have start : Proceeds l s c 0 := ⟨quiet 0, ready.going⟩
    exact ⟨fun time => ready.unpaused time quiet,
      fun late => ready.isStranded_of_not_hasTime late (fun _ => start) le_rfl⟩

/-- A machine for which 7 waits to be read, after a load of a program that puts out what it reads. -/
def echoLoaded : History (List Int) Unit := (History.new [7] ()).performAll pausing [.load echo]

/-- The first cycle, which reads the 7, is complete when a pause is asked for, and the run ends there. -/
theorem pauses_after_first_cycle :
    let c := echoLoaded.controller
    let told := (c.underway 1).journal.dropLast
    FirstPause pausing () c 1 told (.cycleAdvanced 1) [] ∧ c.HasTime 1 ∧
      Paused pausing () c 10 1 told (.cycleAdvanced 1) [] ∧
      (c.run pausing 10 ()).ending = .returned .ready ∧
      (c.run pausing 10 ()).controller.machine.state.ac = 7 := by
  intro c told
  have loadable : ∀ operation ∈ ([.load echo] : List (Operation Unit)), operation.Loadable := by
    decide +kernel
  have pause : FirstPause pausing () c 1 told (.cycleAdvanced 1) [] := by
    refine ⟨fun earlier lt => ?_, by decide +kernel, by decide +kernel, by decide +kernel⟩
    obtain rfl : earlier = 0 := by omega
    exact ⟨by decide +kernel, by decide +kernel⟩
  have time : c.HasTime 1 := hasTime_of_isRepresentable Rate.isRepresentable_standard 1
  have reached : echoLoaded.controller = c := rfl
  have idle : c.running = false := by decide +kernel
  have waiting : c.runState.isTerminal = false := by decide +kernel
  obtain ⟨-, paused, -⟩ :=
    pauses_after_cycle pausing [7] () [.load echo] loadable reached idle waiting pausing ()
  exact ⟨pause, time, (paused 1 told _ _ pause 10 (by decide)).1 time, by decide +kernel,
    by decide +kernel⟩

/-- A controller of two instructions, at a rate of one cycle in `10^19` seconds. -/
def crawlLoaded : History (List Int) Unit :=
  (History.new [] ()).performAll attending [.setRate 1e-19, .load (.ofWords [400, 0])]

/-- **A pause can be asked for in vain**, at a rate whose interval has a duration. A request in the first cycle
comes before the moment of the next cycle is found to be too late, and a run for which nobody asks ends there as
well, although its machine goes on. -/
theorem pause_in_vain :
    let c := crawlLoaded.controller
    let told := (c.underway 1).journal.dropLast
    (Rate.isAccepted 1e-19 = true ∧ Rate.hasDuration c.rate = true) ∧
      (c.running = false ∧ c.runState = .ready ∧ c.machine.stop = none) ∧
      FirstPause pausing () c 1 told (.cycleAdvanced 1) [] ∧
      (c.run pausing 10 ()).ending = .violated .deadlineTooLate ∧
      (c.run pausing 10 ()).controller.runState = .running ∧
      (c.run pausing 10 ()).controller.machine.stop = none ∧
      (∀ count, attending.asks () (c.underway count).journal = false) ∧
      (c.run attending 10 ()).ending = .violated .deadlineTooLate ∧
      (c.run attending 10 ()).controller.running = true ∧
      (c.run attending 10 ()).controller.machine.stop = none := by
  intro c told
  have pause : FirstPause pausing () c 1 told (.cycleAdvanced 1) [] := by
    refine ⟨fun earlier lt => ?_, by decide +kernel, by decide +kernel, by decide +kernel⟩
    obtain rfl : earlier = 0 := by omega
    exact ⟨by decide +kernel, by decide +kernel⟩
  have quiet (count : Nat) : attending.asks () (c.underway count).journal = false :=
    Listener.asks_silent _ _ _
  exact ⟨by decide +kernel, by decide +kernel, pause, by decide +kernel, by decide +kernel,
    by decide +kernel, quiet, by decide +kernel, by decide +kernel, by decide +kernel⟩

end Controller
end DecimalMachine
