/-
# When a run ends

A run proceeds as long as its listener asked for no pause and its machine has not stopped. It ends after
the first number of cycles at which it does not proceed, and what it leaves is then the completed run,
heard by the listener (`Controller.run_of_ends`); with a smaller limit of cycles it is unfinished
(`Controller.run_of_proceeds`). One of the two is the case (`Controller.proceeds_or_ends`).

That a run can start at all takes an idle controller of a machine that is not stopped
(`Controller.Startable`). That it gets through its cycles takes time between them: the interval must have a
duration and, once a cycle has gone on, the moment of the next one must not be too late
(`Controller.HasTime`). A run that has no time is cut off by a violation, at the start or after its first
cycle.
-/

import DecimalMachine.Proofs.Control.Requests
import DecimalMachine.Proofs.Control.Underway
import Mathlib.Data.Nat.Find

namespace DecimalMachine

/-- A rate whose interval can be represented: the time between two cycles has a duration, and so has the
moment of the next cycle. -/
structure Rate.IsRepresentable (rate : Float) : Prop where
  duration : Rate.hasDuration rate = true
  deadline : Rate.hasDeadline rate = true

instance (rate : Float) : Decidable (Rate.IsRepresentable rate) :=
  decidable_of_iff (Rate.hasDuration rate = true ∧ Rate.hasDeadline rate = true)
    ⟨fun h => ⟨h.1, h.2⟩, fun h => ⟨h.duration, h.deadline⟩⟩

/-- The rate of a new controller can be represented. -/
theorem Rate.isRepresentable_standard : Rate.IsRepresentable Rate.standard := by decide +kernel

namespace Listener

variable {σ : Type} (l : Listener σ) (s : σ) (j k : Journal)

/-- A listener that records hears what it would have heard, and the journal. -/
theorem hearAll_recording (running : Bool) :
    l.recording.hearAll running (s, j) k = (l.hearAll running s k, j ++ k) := by
  induction k generalizing s j with
  | nil => rw [List.append_nil]; rfl
  | cons emission rest ih =>
    have happend : j ++ emission :: rest = (j ++ [emission]) ++ rest := by
      rw [List.append_assoc, List.singleton_append]
    rw [happend]
    exact ih _ _

/-- A listener that records asks for a pause where it would have asked for one anyway. -/
theorem asks_recording : l.recording.asks (s, j) k = l.asks s k := by
  have hfirst := l.recording.deliver_fst (s, j) k
  rw [deliver_recording, l.deliver_fst] at hfirst
  exact (Bool.not_inj hfirst).symm

end Listener

namespace Controller

variable {ι σ : Type} [InputSource ι] {c : Controller ι}

/-- A controller that can start a run. -/
structure Startable (c : Controller ι) : Prop where
  idle : c.running = false
  waiting : c.runState.isTerminal = false
  going : c.machine.isStopped = false
  range : c.machine.state.InRange

/-- The rate leaves time for a run of `count` cycles: the interval between two cycles has a duration and, once
the first cycle has gone on, the moment of the next one can be represented. -/
structure HasTime (c : Controller ι) (count : Nat) : Prop where
  duration : Rate.hasDuration c.rate = true
  deadline : count ≠ 0 → c.machine.step.next.isStopped = false → Rate.hasDeadline c.rate = true

/-- After `count` cycles the run goes on: no pause was asked for and the machine has not stopped. -/
structure Proceeds (l : Listener σ) (s : σ) (c : Controller ι) (count : Nat) : Prop where
  quiet : l.asks s (c.underway count).journal = false
  going : (c.underway count).next.machine.isStopped = false

/-- After `count` cycles, and not earlier, the run does not go on. -/
structure Ends (l : Listener σ) (s : σ) (c : Controller ι) (count : Nat) : Prop where
  before : ∀ earlier < count, Proceeds l s c earlier
  ends : ¬ Proceeds l s c count

/-- The run that ends after `count` cycles, as its listener heard it. Up to the first request for a pause
the run flag was set, and it is clear when the run concludes. -/
def concluded (l : Listener σ) (s : σ) (c : Controller ι) (count : Nat) : Run ι σ where
  controller := (c.completed count).next
  listener :=
    l.hearAll false (l.deliver true s (c.underway count).journal).2
      (c.underway count).next.finish.journal
  ending := .returned (c.completed count).result

/-- The journal of a run, as a record of what its listener heard. -/
def runJournal (l : Listener σ) (limit : Nat) (c : Controller ι) (s : σ) : Journal :=
  (c.run l.recording limit (s, [])).listener.2

variable {l : Listener σ} {s : σ} {count : Nat}

/-- At a rate that can be represented there is time for every run. -/
theorem hasTime_of_isRepresentable (h : Rate.IsRepresentable c.rate) (count : Nat) :
    c.HasTime count where
  duration := h.duration
  deadline _ _ := h.deadline

/-- Fewer cycles need no more time. -/
theorem HasTime.mono {fewer : Nat} (time : c.HasTime count) (le : fewer ≤ count) :
    c.HasTime fewer where
  duration := time.duration
  deadline some := time.deadline (by omega)

/-- A run that proceeds after one cycle more proceeds now. -/
theorem Proceeds.of_succ (h : Proceeds l s c (count + 1)) : Proceeds l s c count where
  quiet := by
    have hquiet := h.quiet
    rw [underway_succ, Listener.asks_append, Bool.or_eq_false_iff] at hquiet
    exact hquiet.1
  going := going_underway_of_succ h.going

/-- A run that proceeds after some cycles proceeded after fewer of them. -/
theorem Proceeds.of_le (h : Proceeds l s c count) {earlier : Nat} (le : earlier ≤ count) :
    Proceeds l s c earlier := by
  induction le with
  | refl => exact h
  | step _ ih => exact ih h.of_succ

/-- **Up to its limit a run proceeds, or it ends.** -/
theorem proceeds_or_ends (l : Listener σ) (s : σ) (c : Controller ι) (limit : Nat) :
    Proceeds l s c limit ∨ ∃ count ≤ limit, Ends l s c count := by
  classical
  by_cases h : Proceeds l s c limit
  · exact .inl h
  · have ends : ∃ count, ¬ Proceeds l s c count := ⟨limit, h⟩
    refine .inr ⟨Nat.find ends, Nat.find_min' ends h, ?_, Nat.find_spec ends⟩
    intro earlier lt
    exact not_not.1 (Nat.find_min ends lt)

/-- A listener that records lets a run proceed where it would have proceeded anyway. -/
theorem proceeds_recording {j : Journal} :
    Proceeds l.recording (s, j) c count ↔ Proceeds l s c count := by
  constructor
  · intro h
    exact ⟨l.asks_recording s j _ ▸ h.quiet, h.going⟩
  · intro h
    exact ⟨(l.asks_recording s j _).trans h.quiet, h.going⟩

/-! ### From one cycle to the next -/

omit [InputSource ι] in
/-- A listener that asked for nothing leaves the controller as it is. -/
theorem announce_of_quiet {α : Type} {turn : Turn (Controller ι) α} (running : turn.next.running = true)
    (quiet : l.asks s turn.journal = false) :
    announce l s turn = (turn.next, l.hearAll true s turn.journal) := by
  unfold announce
  rw [running, l.deliver_of_quiet s quiet]
  dsimp only
  rw [← running]

omit [InputSource ι] in
/-- A listener that asked for a pause clears the run flag. -/
theorem running_announce_of_asks {α : Type} {turn : Turn (Controller ι) α}
    (running : turn.next.running = true) (asked : l.asks s turn.journal = true) :
    (announce l s turn).1.running = false := by
  unfold announce
  rw [running]
  dsimp only
  rw [l.deliver_fst, asked]
  rfl

omit [InputSource ι] in
/-- The run flag does not matter to the end of a run. -/
theorem finish_setRunning (c : Controller ι) (running : Bool) :
    ({ c with running := running } : Controller ι).finish = c.finish := rfl

/-- While a run is underway its run flag is set. -/
theorem running_underway (c : Controller ι) (count : Nat) : (c.underway count).next.running = true :=
  (frame_underway c count).1

/-- The listener hears one cycle more. -/
theorem announce_underway_succ (h : l.asks s (c.underway count).journal = false) :
    announce l (l.hearAll true s (c.underway count).journal) (c.underway count).next.cycle =
      announce l s (c.underway (count + 1)) := by
  have hrunning := running_underway c (count + 1)
  rw [underway_succ] at hrunning ⊢
  unfold announce
  dsimp only at hrunning ⊢
  rw [hrunning, Listener.deliver_append, l.deliver_of_quiet s h]

/-- **A run concludes** as the completed run that its listener heard. -/
theorem conclude_underway (l : Listener σ) (s : σ) (c : Controller ι) (count : Nat) :
    conclude l (announce l s (c.underway count)).1 (announce l s (c.underway count)).2 =
      concluded l s c count := by
  have hrunning := running_underway c count
  obtain ⟨hfinish, -⟩ := frame_finish (c.underway count).next
  unfold conclude announce concluded completed
  dsimp only
  rw [finish_setRunning, hfinish, hrunning, Listener.deliver_clear]
  dsimp only
  rw [← hfinish]

/-- A run whose listener asked for a pause does no further cycle. -/
theorem runFrom_of_asks (asked : l.asks s (c.underway count).journal = true) (limit : Nat) :
    runFrom l limit (announce l s (c.underway count)).1 (announce l s (c.underway count)).2 =
      concluded l s c count := by
  have hclear := running_announce_of_asks (running_underway c count) asked
  unfold runFrom
  rw [hclear]
  exact conclude_underway l s c count

section Range

variable (range : c.machine.state.InRange)

include range

/-- A run that goes on after some cycles went on after the first of them. -/
theorem first_goesOn (going : (c.underway (count + 1)).next.machine.isStopped = false) :
    c.machine.step.next.isStopped = false := by
  induction count with
  | zero =>
    rw [machine_underway range] at going
    exact going
  | succ count ih => exact ih (going_underway_of_succ going)

/-- A run that proceeds does one cycle more. Then it concludes if the machine stopped, and otherwise it goes
on if the moment of the next cycle can be represented. -/
theorem runFrom_of_proceeds (h : Proceeds l s c count) (limit : Nat) :
    runFrom l (limit + 1) (announce l s (c.underway count)).1 (announce l s (c.underway count)).2 =
      if (c.underway (count + 1)).next.machine.isStopped then concluded l s c (count + 1)
      else if Rate.hasDeadline c.rate then
        runFrom l limit (announce l s (c.underway (count + 1))).1
          (announce l s (c.underway (count + 1))).2
      else
        ⟨(announce l s (c.underway (count + 1))).1, (announce l s (c.underway (count + 1))).2,
          .violated .deadlineTooLate⟩ := by
  have hrunning := running_underway c count
  have hrange := inRange_underway range count
  have hnext : (c.underway (count + 1)).next.machine =
      (c.underway count).next.machine.step.next := by
    have hcycle := (cycle_follows_step hrange).machine
    exact hcycle
  rw [announce_of_quiet hrunning h.quiet, runFrom, if_pos hrunning]
  dsimp only
  rw [announce_underway_succ h.quiet]
  cases stopped : (c.underway (count + 1)).next.machine.isStopped with
  | true =>
    have hresult : (c.underway count).next.cycle.result = .ok false := by
      rw [cycle_of_stops hrange h.going (hnext ▸ stopped)]
    rw [hresult]
    exact conclude_underway l s c (count + 1)
  | false =>
    have hresult : (c.underway count).next.cycle.result = .ok true := by
      rw [cycle_of_goesOn hrange h.going (hnext ▸ stopped)]
    have hrate : (announce l s (c.underway (count + 1))).1.rate = c.rate :=
      (frame_underway c (count + 1)).2
    rw [hresult]
    dsimp only
    rw [hrate]
    rfl

end Range

/-! ### Runs that start -/

/-- A run that starts tells so; then it goes on if the interval can be represented. -/
theorem run_of_waiting (idle : c.running = false) (waiting : c.runState.isTerminal = false)
    (l : Listener σ) (s : σ) (limit : Nat) :
    run l limit c s =
      if Rate.hasDuration c.rate then
        runFrom l limit (announce l s (c.underway 0)).1 (announce l s (c.underway 0)).2
      else
        ⟨(announce l s (c.underway 0)).1, (announce l s (c.underway 0)).2,
          .violated .intervalTooLong⟩ := by
  rw [run, idle, waiting]
  rfl

section Startable

variable (ready : c.Startable)

include ready

/-- A run whose interval has a duration gets past its start. -/
theorem run_eq_runFrom (duration : Rate.hasDuration c.rate = true) (l : Listener σ) (s : σ)
    (limit : Nat) :
    run l limit c s =
      runFrom l limit (announce l s (c.underway 0)).1 (announce l s (c.underway 0)).2 := by
  rw [run_of_waiting ready.idle ready.waiting, if_pos duration]

/-- Without a duration no run gets as far as its first cycle. -/
theorem run_of_not_hasDuration (long : Rate.hasDuration c.rate = false) (l : Listener σ) (s : σ)
    (limit : Nat) :
    run l limit c s =
      ⟨(announce l s (c.underway 0)).1, (announce l s (c.underway 0)).2,
        .violated .intervalTooLong⟩ := by
  rw [run_of_waiting ready.idle ready.waiting, long]
  rfl

/-- Without a deadline a run that proceeds at its start does one cycle, and is cut off if the cycle goes on. -/
theorem run_of_not_hasDeadline (short : Rate.hasDuration c.rate = true)
    (late : Rate.hasDeadline c.rate = false) (h : Proceeds l s c 0) (limit : Nat) :
    run l (limit + 1) c s =
      if c.machine.step.next.isStopped then concluded l s c 1
      else
        ⟨(announce l s (c.underway 1)).1, (announce l s (c.underway 1)).2,
          .violated .deadlineTooLate⟩ := by
  have first : (c.underway 1).next.machine = c.machine.step.next := machine_underway ready.range 1
  rw [run_eq_runFrom ready short, runFrom_of_proceeds ready.range h, late, first]
  rfl

/-- The limit is the number of cycles that are left. -/
theorem run_eq_runFrom_of_proceeds (time : c.HasTime count) (h : Proceeds l s c count) (limit : Nat) :
    run l (count + limit) c s =
      runFrom l limit (announce l s (c.underway count)).1 (announce l s (c.underway count)).2 := by
  induction count generalizing limit with
  | zero =>
    rw [Nat.zero_add]
    exact run_eq_runFrom ready time.duration l s limit
  | succ count ih =>
    have hlimit : count + 1 + limit = count + (limit + 1) := by omega
    have deadline := time.deadline (Nat.succ_ne_zero count) (first_goesOn ready.range h.going)
    have before := time.mono (Nat.le_succ count)
    rw [hlimit, ih before h.of_succ, runFrom_of_proceeds ready.range h.of_succ, h.going,
      if_pos deadline]
    rfl

/-! ### Whole runs -/

/-- **A run that proceeds at its limit is unfinished**, after exactly as many cycles. -/
theorem run_of_proceeds (time : c.HasTime count) (h : Proceeds l s c count) :
    run l count c s =
      ⟨(c.underway count).next, l.hearAll true s (c.underway count).journal, .unfinished⟩ := by
  have hrun := run_eq_runFrom_of_proceeds ready time h 0
  have hrunning := running_underway c count
  rw [Nat.add_zero, announce_of_quiet hrunning h.quiet, runFrom, if_pos hrunning] at hrun
  exact hrun

/-- **A run ends at the first number of cycles at which it does not proceed**, whatever its limit is
beyond that. -/
theorem run_of_ends (time : c.HasTime count) (h : Ends l s c count) {limit : Nat} (le : count ≤ limit) :
    run l limit c s = concluded l s c count := by
  cases count with
  | zero =>
    have asked : l.asks s (c.underway 0).journal = true := by
      by_contra quiet
      exact h.ends ⟨Bool.not_eq_true _ ▸ quiet, ready.going⟩
    rw [run_eq_runFrom ready time.duration]
    exact runFrom_of_asks asked limit
  | succ count =>
    have hproceeds := h.before count (Nat.lt_succ_self count)
    obtain ⟨left, rfl⟩ := Nat.exists_eq_add_of_le le
    have hlimit : count + 1 + left = count + (left + 1) := by omega
    have before := time.mono (Nat.le_succ count)
    rw [hlimit, run_eq_runFrom_of_proceeds ready before hproceeds,
      runFrom_of_proceeds ready.range hproceeds]
    cases stopped : (c.underway (count + 1)).next.machine.isStopped with
    | true => rfl
    | false =>
      have deadline := time.deadline (Nat.succ_ne_zero count) (first_goesOn ready.range stopped)
      have asked : l.asks s (c.underway (count + 1)).journal = true := by
        by_contra quiet
        exact h.ends ⟨Bool.not_eq_true _ ▸ quiet, stopped⟩
      rw [if_pos deadline]
      exact runFrom_of_asks asked left

/-! ### Journals of runs -/

/-- A run that is unfinished has told what its cycles told. -/
theorem runJournal_of_proceeds (time : c.HasTime count) (h : Proceeds l s c count) :
    runJournal l count c s = (c.underway count).journal := by
  have hrecorded : Proceeds l.recording (s, []) c count := proceeds_recording.2 h
  unfold runJournal
  rw [run_of_proceeds ready time hrecorded]
  dsimp only
  rw [Listener.hearAll_recording]
  rfl

/-- A run that ended has told what the completed run tells. -/
theorem runJournal_of_ends (time : c.HasTime count) (h : Ends l s c count) {limit : Nat}
    (le : count ≤ limit) :
    runJournal l limit c s = (c.completed count).journal := by
  have hrecorded : Ends l.recording (s, []) c count :=
    ⟨fun earlier lt => proceeds_recording.2 (h.before earlier lt),
      fun proceeds => h.ends (proceeds_recording.1 proceeds)⟩
  unfold runJournal
  rw [run_of_ends ready time hrecorded le]
  unfold concluded
  dsimp only
  rw [Listener.deliver_recording, Listener.hearAll_recording]
  rfl

end Startable

end Controller
end DecimalMachine
