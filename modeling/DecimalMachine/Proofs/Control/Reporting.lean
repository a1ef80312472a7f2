/-
# What a controller reports of a machine that it takes over

A controller keeps a run state of its own beside the stop of its machine. It begins as ready whatever the
machine is, and only a cycle that stops the machine, a load and a reset bring it up to the stop. So a machine
that was stopped before the controller took it over is never reported as stopped: a run finds nothing to
do, and ends as if it had been paused.

| machine when taken over | run state after a finished run |
| --- | --- |
| can go on | halted or errored, as the machine is |
| stopped, not loaded or reset since | ready |
| stopped, then loaded or reset | halted or errored, as the machine is |

`Faithful` is what calls keep on the first and the last way, `Oblivious` what they keep on the second. Neither
asks that the machine is in range or that the rate can be represented.
-/

import DecimalMachine.Proofs.Control.History

namespace DecimalMachine

/-- A run state that tells whether a machine halted and whether it failed. -/
structure RunState.Reports (state : RunState) (stop : Option Stop) : Prop where
  halted : state = .halted ↔ ∃ reason, stop = some (.halted reason)
  errored : state = .errored ↔ ∃ fault, stop = some (.errored fault)

namespace RunState

/-- The run state that a stop settles tells of the stop. -/
theorem reports_settled (stop : Option Stop) : (settled stop).Reports stop :=
  ⟨settled_eq_halted_iff, settled_eq_errored_iff⟩

/-- A run state that is not terminal tells of a machine that did not stop. -/
theorem reports_of_not_isTerminal {state : RunState} (h : state.isTerminal = false) :
    state.Reports none := by
  constructor <;> rcases state with _ | _ | _ | _ <;> simp_all [isTerminal]

/-- Of a stopped machine only a terminal run state tells. -/
theorem Reports.isTerminal {state : RunState} {stop : Option Stop} (h : state.Reports stop) :
    state.isTerminal = stop.isSome := by
  rcases stop with _ | ⟨reason | fault⟩
  · rcases state with _ | _ | _ | _
    case ready | running => rfl
    case halted => simpa using h.halted
    case errored => simpa using h.errored
  · rw [h.halted.2 ⟨reason, rfl⟩]
    rfl
  · rw [h.errored.2 ⟨fault, rfl⟩]
    rfl

end RunState

namespace Machine

variable {ι : Type} [InputSource ι] {m : Machine ι}

/-- A step that ends as a violation stops nothing. -/
theorem isStopped_step_of_error {violation : Violation} (h : m.step.result = .error violation) :
    m.step.next.isStopped = false := by
  cases stopped : m.isStopped with
  | true =>
    rw [step_of_isStopped stopped] at h
    cases h
  | false =>
    rw [step_of_not_isStopped stopped] at h ⊢
    cases ending : m.cycle.2 with
    | proceeded | halted | faulted =>
      rw [ending] at h
      cases h
    | violated other =>
      rw [Progress.settle, isStopped, stop_cycle]
      exact stopped

end Machine

namespace Controller

variable {ι σ : Type} {c : Controller ι} {l : Listener σ} {s : σ}

/-! ### Faithful controllers -/

/-- The run state tells how the machine stands, and it is running while a run is going on. -/
structure Faithful (c : Controller ι) : Prop where
  reports : c.runState.Reports c.machine.stop
  running : c.running = true → c.runState = .running

/-- A controller that is in a run of a machine that can go on. -/
structure Underway (c : Controller ι) : Prop where
  runState : c.runState = .running
  going : c.machine.isStopped = false

/-- While a run is underway its controller is faithful. -/
theorem Underway.faithful (h : c.Underway) : c.Faithful where
  reports := by
    rw [h.runState, Machine.stop_eq_none h.going]
    exact RunState.reports_of_not_isTerminal rfl
  running _ := h.runState

/-- A controller of a machine that can go on and of which no run is going on. -/
theorem faithful_of_going (idle : c.running = false) (waiting : c.runState.isTerminal = false)
    (going : c.machine.isStopped = false) : c.Faithful where
  reports := by
    rw [Machine.stop_eq_none going]
    exact RunState.reports_of_not_isTerminal waiting
  running busy := by
    rw [idle] at busy
    cases busy

/-- What a listener hears can only end a run. -/
theorem announce_fst {α : Type} (turn : Turn (Controller ι) α) :
    ∃ running, (announce l s turn).1 = { turn.next with running := running } ∧
      (running = true → turn.next.running = true) := by
  refine ⟨(l.deliver turn.next.running s turn.journal).1, rfl, fun still => ?_⟩
  rw [← Bool.not_eq_false]
  intro idle
  rw [idle, l.deliver_false] at still
  cases still

/-- Whatever its listener makes of what it hears, a faithful controller stays faithful. -/
theorem Faithful.heard {α : Type} {turn : Turn (Controller ι) α} (h : turn.next.Faithful) :
    (announce l s turn).1.Faithful := by
  obtain ⟨running, hnext, ends⟩ := announce_fst (l := l) (s := s) turn
  rw [hnext]
  exact ⟨h.reports, fun still => h.running (ends still)⟩

/-- Whatever its listener makes of what it hears, a run stays underway. -/
theorem Underway.heard {α : Type} {turn : Turn (Controller ι) α} (h : turn.next.Underway) :
    (announce l s turn).1.Underway := by
  obtain ⟨running, hnext, -⟩ := announce_fst (l := l) (s := s) turn
  rw [hnext]
  exact ⟨h.runState, h.going⟩

/-- **The end of a run keeps faith**: a run state that is running becomes ready, because the machine did not
stop. -/
theorem faithful_finish (h : c.runState.Reports c.machine.stop) : c.finish.next.Faithful := by
  obtain ⟨idle, machine, -, -⟩ := frame_finish c
  refine ⟨?_, fun busy => absurd (idle.symm.trans busy) Bool.false_ne_true⟩
  rw [machine]
  by_cases running : c.runState = .running
  · have going : c.machine.stop = none := by
      have told := h.isTerminal
      rw [running] at told
      exact Option.not_isSome_iff_eq_none.1 (Bool.eq_false_iff.1 told.symm)
    rw [finish, if_pos running, going]
    exact RunState.reports_of_not_isTerminal rfl
  · rw [finish, if_neg running]
    exact h

/-- The end of a run leaves the controller that `finish` leaves, and returns its run state. -/
theorem conclude_eq (l : Listener σ) (c : Controller ι) (s : σ) :
    (conclude l c s).controller = c.finish.next ∧
      (conclude l c s).ending = .returned c.finish.next.runState := by
  have hfinish : (announce l s c.finish).1 = c.finish.next :=
    announce_of_idle (frame_finish c).1
  unfold conclude
  dsimp only
  rw [hfinish]
  exact ⟨rfl, rfl⟩

/-- A run that the machine ended returns how it ended. -/
theorem runState_finish_of_isTerminal (h : c.runState.isTerminal = true) :
    c.finish.next.runState = c.runState := by
  have stopped : c.runState ≠ .running := by
    intro running
    rw [running] at h
    cases h
  rw [Controller.finish, if_neg stopped]

variable [InputSource ι]

/-- **A cycle keeps a run underway or ends it with the run state of the stop.** -/
theorem cycle_cases (going : c.machine.isStopped = false) :
    (c.cycle.result ≠ .ok false ∧ c.cycle.next.machine.isStopped = false ∧
        c.cycle.next.runState = c.runState) ∨
      (c.cycle.result = .ok false ∧ c.cycle.next.machine.isStopped = true ∧
        c.cycle.next.runState = .settled c.cycle.next.machine.stop) := by
  obtain ⟨-, -, runState⟩ := frame_stepped c
  rcases result : c.machine.step.result with violation | _ | _
  · rw [cycle_of_error going result]
    exact .inl ⟨by simp, Machine.isStopped_step_of_error result, rfl⟩
  · have stopped : c.stepped.next.machine.stop.isSome = true := by
      rw [machine_stepped]
      exact Machine.isStopped_step result
    rw [cycle_of_result going result]
    exact .inr ⟨rfl, stopped, RunState.ofStop_of_isSome stopped⟩
  · have going' : c.stepped.next.machine.isStopped = false := by
      rw [machine_stepped, Machine.isStopped, (Machine.step_goesOn result).1]
      rfl
    rw [cycle_of_result going result]
    exact .inl ⟨by simp, going', runState⟩

/-- A cycle of a run that is underway keeps it so, or ends it with a terminal run state that tells of the
stop. -/
theorem Underway.cycle_cases (h : c.Underway) :
    (c.cycle.result ≠ .ok false ∧ c.cycle.next.Underway) ∨
      (c.cycle.result = .ok false ∧ c.cycle.next.runState.isTerminal = true ∧
        c.cycle.next.runState.Reports c.cycle.next.machine.stop) := by
  rcases Controller.cycle_cases h.going with ⟨goes, going, runState⟩ | ⟨ends, stopped, runState⟩
  · exact .inl ⟨goes, runState.trans h.runState, going⟩
  · rw [runState, RunState.isTerminal_settled]
    exact .inr ⟨ends, stopped, RunState.reports_settled _⟩

/-! ### Runs of faithful controllers -/

omit [InputSource ι] in
/-- What the listener of a cycle leaves is the controller after the cycle, but for the run flag. -/
theorem eq_of_announce {τ α : Type} {k : Listener τ} {t t' : τ} {turn : Turn (Controller ι) α}
    {next : Controller ι} (heard : announce k t turn = (next, t')) :
    ∃ running, next = { turn.next with running := running } := by
  obtain ⟨running, hnext, -⟩ := announce_fst (l := k) (s := t) turn
  rw [heard] at hnext
  exact ⟨running, hnext⟩

/-- A cycle that goes on, or ends as a violation, leaves the run underway. -/
theorem Underway.next {τ : Type} {k : Listener τ} {t t' : τ} {next : Controller ι} (h : c.Underway)
    (heard : announce k t c.cycle = (next, t')) (goes : c.cycle.result ≠ .ok false) :
    next.Underway := by
  obtain ⟨running, rfl⟩ := eq_of_announce heard
  rcases h.cycle_cases with ⟨-, underway⟩ | ⟨ends, -⟩
  · exact ⟨underway.runState, underway.going⟩
  · exact absurd ends goes

/-- A cycle that stops the machine leaves a terminal run state that tells how. -/
theorem Underway.ended {τ : Type} {k : Listener τ} {t t' : τ} {next : Controller ι} (h : c.Underway)
    (heard : announce k t c.cycle = (next, t')) (ends : c.cycle.result = .ok false) :
    next.runState.isTerminal = true ∧ next.runState.Reports next.machine.stop := by
  obtain ⟨running, rfl⟩ := eq_of_announce heard
  rcases h.cycle_cases with ⟨goes, -⟩ | ⟨-, stopped⟩
  · exact absurd ends goes
  · exact stopped

/-- A run that is underway leaves a faithful controller, however it ends. -/
theorem Underway.faithful_runFrom (h : c.Underway) (l : Listener σ) (limit : Nat) (s : σ) :
    (runFrom l limit c s).controller.Faithful := by
  fun_induction runFrom l limit c s with
  | case1 c s busy => exact h.faithful
  | case2 c s busy limit turn next t heard violation result =>
    exact (h.next heard (by rw [result]; simp)).faithful
  | case3 c s busy limit turn next t heard result =>
    rw [(conclude_eq l next t).1]
    exact faithful_finish (h.ended heard result).2
  | case4 c s busy limit turn next t heard result deadline ih =>
    exact ih (h.next heard (by rw [result]; simp))
  | case5 c s busy limit turn next t heard result late =>
    exact (h.next heard (by rw [result]; simp)).faithful
  | case6 limit c s idle =>
    rw [(conclude_eq l c s).1]
    exact faithful_finish h.faithful.reports

/-- What a run does that is asked for: nothing while one is going on, nothing if the run state is terminal,
and else it starts. -/
theorem run_cases (l : Listener σ) (limit : Nat) (c : Controller ι) (s : σ) :
    (c.running = true ∧ (run l limit c s).controller = c ∧
        (run l limit c s).ending = .returned c.runState) ∨
      (c.running = false ∧ c.runState.isTerminal = true ∧
        run l limit c s = ⟨c, s, .returned c.runState⟩) ∨
      (c.running = false ∧ c.runState.isTerminal = false ∧
        run l limit c s =
          if Rate.hasDuration c.rate then runFrom l limit (announce l s c.start).1 (announce l s c.start).2
          else ⟨(announce l s c.start).1, (announce l s c.start).2, .violated .intervalTooLong⟩) := by
  cases running : c.running with
  | true =>
    refine .inl ⟨rfl, ?_⟩
    rw [run, if_pos running]
    exact ⟨rfl, rfl⟩
  | false =>
    right
    rw [run, if_neg (Bool.eq_false_iff.1 running)]
    cases terminal : c.runState.isTerminal with
    | true => exact .inl ⟨rfl, rfl, rfl⟩
    | false =>
      refine .inr ⟨rfl, rfl, ?_⟩
      rfl

omit [InputSource ι] in
/-- A faithful controller whose run state is not terminal starts a run of a machine that can go on. -/
theorem Faithful.underway_start (h : c.Faithful) (waiting : c.runState.isTerminal = false) :
    c.start.next.Underway := by
  have told := h.reports.isTerminal
  exact ⟨rfl, told.symm.trans waiting⟩

/-- **A run of a faithful controller leaves it faithful**, however it ends. -/
theorem Faithful.run (h : c.Faithful) (l : Listener σ) (limit : Nat) (s : σ) :
    (Controller.run l limit c s).controller.Faithful := by
  rcases run_cases l limit c s with ⟨-, same, -⟩ | ⟨-, -, same⟩ | ⟨-, waiting, started⟩
  · rw [same]
    exact h
  · rw [same]
    exact h
  · have underway : (announce l s c.start).1.Underway := (h.underway_start waiting).heard
    rw [started]
    split
    · exact underway.faithful_runFrom l limit _
    · exact underway.faithful

omit [InputSource ι] in
/-- The end of a recorded run adds its journal to the record. -/
theorem conclude_recording_listener (l : Listener σ) (c : Controller ι) (s : σ) (j : Journal) :
    (conclude l.recording c (s, j)).listener.2 = j ++ c.finish.journal := by
  unfold conclude
  rw [announce_recording]

/-- **A run that is not paused returns how the machine stopped.** The induction is along the run; `rest` is
what it still tells, and as long as nobody asks for a pause in it the run flag stays set. -/
theorem Underway.runFrom_returned (h : c.Underway) (l : Listener σ) (limit : Nat) (r : σ × Journal) :
    ∃ rest, (runFrom l.recording limit c r).listener.2 = r.2 ++ rest ∧
      (c.running = true → l.asks r.1 rest = false →
        ∀ state, (runFrom l.recording limit c r).ending = .returned state →
          state.isTerminal = true) := by
  fun_induction runFrom l.recording limit c r with
  | case1 c r busy =>
    refine ⟨[], (List.append_nil _).symm, fun _ _ state returned => ?_⟩
    cases returned
  | case2 c r busy limit turn next t heard violation result =>
    rw [announce_recording] at heard
    obtain ⟨-, rfl⟩ := Prod.mk.inj heard
    refine ⟨_, rfl, fun _ _ state returned => ?_⟩
    cases returned
  | case3 c r busy limit turn next t heard result =>
    obtain ⟨terminal, -⟩ := h.ended heard result
    rw [announce_recording] at heard
    obtain ⟨-, rfl⟩ := Prod.mk.inj heard
    rw [conclude_recording_listener, (conclude_eq l.recording next _).2, List.append_assoc,
      runState_finish_of_isTerminal terminal]
    refine ⟨_, rfl, fun _ _ state returned => ?_⟩
    obtain rfl := RunEnding.returned.inj returned
    exact terminal
  | case4 c r busy limit turn next t heard result deadline ih =>
    have still : turn.next.running = true := (frame_cycle c).1.trans busy
    obtain ⟨rest, hrest, hreturned⟩ := ih (h.next heard (by rw [result]; simp))
    rw [announce_recording] at heard
    obtain ⟨rfl, rfl⟩ := Prod.mk.inj heard
    refine ⟨turn.journal ++ rest, by rw [hrest, List.append_assoc], fun _ quiet => ?_⟩
    rw [l.asks_append, Bool.or_eq_false_iff] at quiet
    refine hreturned ?_ ?_
    · rw [announce_of_quiet still quiet.1]
      exact still
    · rw [announce_of_quiet still quiet.1]
      exact quiet.2
  | case5 c r busy limit turn next t heard result late =>
    rw [announce_recording] at heard
    obtain ⟨-, rfl⟩ := Prod.mk.inj heard
    refine ⟨_, rfl, fun _ _ state returned => ?_⟩
    cases returned
  | case6 limit c r idle =>
    rw [conclude_recording_listener]
    exact ⟨_, rfl, fun busy => absurd busy idle⟩

omit [InputSource ι] in
/-- The end of a run returns the run state that it leaves. -/
theorem conclude_returns {state : RunState} (returned : (conclude l c s).ending = .returned state) :
    (conclude l c s).controller.runState = state := by
  rw [(conclude_eq l c s).2] at returned
  rw [(conclude_eq l c s).1]
  exact RunEnding.returned.inj returned

/-- What a run returns is the run state that it leaves. -/
theorem runFrom_returns (l : Listener σ) (limit : Nat) (c : Controller ι) (s : σ) {state : RunState}
    (returned : (runFrom l limit c s).ending = .returned state) :
    (runFrom l limit c s).controller.runState = state := by
  fun_induction runFrom l limit c s with
  | case1 | case2 | case5 => cases returned
  | case3 | case6 => exact conclude_returns returned
  | case4 c s busy limit turn next t heard result deadline ih => exact ih returned

/-- **What a run returns is the run state that it leaves**, also if it did not start. -/
theorem run_returns (l : Listener σ) (limit : Nat) (c : Controller ι) (s : σ) {state : RunState}
    (returned : (run l limit c s).ending = .returned state) :
    (run l limit c s).controller.runState = state := by
  rcases run_cases l limit c s with ⟨-, same, ending⟩ | ⟨-, -, same⟩ | ⟨-, -, started⟩
  · rw [ending] at returned
    rw [same]
    exact RunEnding.returned.inj returned
  · rw [same] at returned ⊢
    exact RunEnding.returned.inj returned
  · rw [started] at returned ⊢
    split at returned
    · next duration =>
      rw [if_pos duration]
      exact runFrom_returns l limit _ _ returned
    · cases returned

/-- **A faithful controller never ends a run as ready** if nobody asks for a pause in it. -/
theorem Faithful.run_ne_ready (h : c.Faithful) {limit : Nat}
    (quiet : l.asks s (c.runJournal l limit s) = false) {state : RunState}
    (returned : (Controller.run l limit c s).ending = .returned state) : state ≠ .ready := by
  have hheard : (Controller.run l.recording limit c (s, [])).ending = .returned state := by
    rw [← returned, ← run_recording l s [] limit c]
    rfl
  unfold runJournal at quiet
  rcases run_cases l.recording limit c (s, []) with ⟨busy, -, ending⟩ | ⟨-, terminal, same⟩ |
    ⟨-, waiting, started⟩
  · rw [ending] at hheard
    obtain rfl := RunEnding.returned.inj hheard
    rw [h.running busy]
    nofun
  · rw [same] at hheard
    obtain rfl := RunEnding.returned.inj hheard
    intro ready
    rw [ready] at terminal
    cases terminal
  · rw [started] at hheard quiet
    split at hheard
    · next duration =>
      rw [if_pos duration, announce_recording] at quiet
      rw [announce_recording] at hheard
      have underway : (announce l s c.start).1.Underway := (h.underway_start waiting).heard
      obtain ⟨rest, hrest, hreturned⟩ :=
        underway.runFrom_returned l limit ((announce l s c.start).2, [] ++ c.start.journal)
      rw [hrest, List.nil_append, l.asks_append, Bool.or_eq_false_iff] at quiet
      rw [announce_of_quiet rfl quiet.1] at hreturned hheard
      have terminal := hreturned rfl quiet.2 state hheard
      intro ready
      rw [ready] at terminal
      cases terminal
    · cases hheard

/-! ### Controllers that never saw the machine stop -/

/-- The controller still has the machine `m`, and its run state is that of a machine that did not stop. -/
structure Oblivious (m : Machine ι) (c : Controller ι) : Prop where
  machine : c.machine = m
  waiting : c.runState.isTerminal = false

omit [InputSource ι] in
/-- The end of a run leaves the machine alone, and a run state that is not terminal. -/
theorem Oblivious.finish {m : Machine ι} (h : c.Oblivious m) : c.finish.next.Oblivious m := by
  obtain ⟨-, machine, -, -⟩ := frame_finish c
  refine ⟨machine.trans h.machine, ?_⟩
  unfold Controller.finish
  split
  · rfl
  · exact h.waiting

/-- A run finds nothing to do on a stopped machine: it ends at once, unless it may not even begin a cycle. -/
theorem runFrom_of_isStopped (stopped : c.machine.isStopped = true) (l : Listener σ) (limit : Nat)
    (s : σ) :
    (limit = 0 ∧ runFrom l limit c s = ⟨c, s, .unfinished⟩) ∨
      runFrom l limit c s = conclude l c s := by
  unfold runFrom
  split
  · cases limit with
    | zero => exact .inl ⟨rfl, rfl⟩
    | succ limit =>
      rw [cycle_of_isStopped stopped]
      exact .inr rfl
  · exact .inr rfl

/-- **A run over a stopped machine** leaves controller and machine as they are, or ready again. -/
theorem Oblivious.run {m : Machine ι} (h : c.Oblivious m) (stopped : m.isStopped = true)
    (l : Listener σ) (limit : Nat) (s : σ) :
    (Controller.run l limit c s).controller.Oblivious m ∧
      (c.running = false → Rate.hasDuration c.rate = true → 0 < limit →
        (Controller.run l limit c s).ending = .returned .ready) := by
  rcases run_cases l limit c s with ⟨busy, same, -⟩ | ⟨-, terminal, -⟩ | ⟨-, -, started⟩
  · rw [same]
    exact ⟨h, fun idle => absurd (idle.symm.trans busy) Bool.false_ne_true⟩
  · rw [h.waiting] at terminal
    cases terminal
  · obtain ⟨running, hstart, -⟩ := announce_fst (l := l) (s := s) c.start
    rw [started, hstart]
    have underway : ({ c.start.next with running := running } : Controller ι).Oblivious m :=
      ⟨h.machine, rfl⟩
    split
    · next duration =>
      have dead : ({ c.start.next with running := running } : Controller ι).machine.isStopped = true := by
        rw [underway.machine]
        exact stopped
      rcases runFrom_of_isStopped dead l limit (announce l s c.start).2 with ⟨none, same⟩ | same
      · rw [same]
        exact ⟨underway, fun _ _ some => by omega⟩
      · rw [same, (conclude_eq l _ _).1, (conclude_eq l _ _).2]
        exact ⟨underway.finish, fun _ _ _ => rfl⟩
    · next endless => exact ⟨underway, fun _ duration => absurd duration endless⟩

/-! ### Calls -/

/-- **A single step of a faithful controller leaves it faithful.** -/
theorem Faithful.singleStep (h : c.Faithful) : c.singleStep.next.Faithful := by
  cases running : c.running with
  | true =>
    rw [Controller.singleStep, if_pos running]
    exact h
  | false =>
    have idle : c.cycle.next.running = true → c.cycle.next.runState = .running := by
      intro busy
      rw [(frame_cycle c).1, running] at busy
      cases busy
    rw [singleStep_of_idle running]
    refine ⟨?_, idle⟩
    cases going : c.machine.isStopped with
    | true =>
      rw [cycle_of_isStopped going]
      exact h.reports
    | false =>
      have waiting := h.reports.isTerminal
      rw [← Machine.isStopped, going] at waiting
      dsimp only
      rcases cycle_cases going with ⟨-, next, runState⟩ | ⟨-, -, runState⟩
      · rw [runState, Machine.stop_eq_none next]
        exact RunState.reports_of_not_isTerminal waiting
      · rw [runState]
        exact RunState.reports_settled _

omit [InputSource ι] in
/-- Whatever its listener makes of what it hears, an oblivious controller stays so. -/
theorem Oblivious.heard {m : Machine ι} {α : Type} {turn : Turn (Controller ι) α}
    (h : turn.next.Oblivious m) : (announce l s turn).1.Oblivious m := by
  obtain ⟨running, hnext, -⟩ := announce_fst (l := l) (s := s) turn
  rw [hnext]
  exact ⟨h.machine, h.waiting⟩

/-- A single step over a stopped machine changes nothing, and so tells nothing of the stop. -/
theorem Oblivious.singleStep {m : Machine ι} (h : c.Oblivious m) (stopped : m.isStopped = true) :
    c.singleStep.next = c := by
  have dead : c.machine.isStopped = true := by rw [h.machine, stopped]
  unfold Controller.singleStep
  rw [cycle_of_isStopped dead]
  split <;> rfl

omit [InputSource ι] in
/-- A call that hands a machine that can go on to an idle controller, and makes it ready. -/
theorem faithful_restart (idle : c.running = false) {machine : Machine ι} (going : machine.stop = none)
    (journal : Journal) (result : Except ControlError Unit) :
    let turn : Turn (Controller ι) (Except ControlError Unit) :=
      ⟨{ c with machine := machine, cycles := 0, runState := .ready },
        journal ++ enterJournal c.runState .ready, result⟩
    (announce l s turn).1.Faithful ∧ ∃ change ∈ turn.journal.changes true, change.restart = true := by
  intro turn
  have hfaithful : turn.next.Faithful :=
    faithful_of_going idle rfl (by rw [Machine.isStopped, going]; rfl)
  refine ⟨hfaithful.heard, ⟨.ready, true⟩, ?_, rfl⟩
  rw [Journal.changes, Journal.runStates_append, List.map_append]
  exact List.mem_append_right _ List.mem_cons_self

/-- A load or a reset that a controller is free to carry out makes it faithful, and tells that it restarted
the machine. Every other call tells of no restart, and keeps a controller faithful or oblivious. -/
theorem ask_cases (l : Listener σ) (c : Controller ι) (s : σ) {operation : Operation σ}
    (loadable : operation.Loadable) :
    let turn := c.ask l s operation
    (turn.next.1.Faithful ∧ ∃ change ∈ turn.journal.changes operation.restarts, change.restart = true) ∨
      ((∀ change ∈ turn.journal.changes operation.restarts, change.restart = false) ∧
        (c.Faithful → turn.next.1.Faithful) ∧
        ∀ m : Machine ι, m.isStopped = true → c.Oblivious m → turn.next.1.Oblivious m) := by
  intro turn
  have untold (quiet : operation.restarts = false) :
      ∀ change ∈ turn.journal.changes operation.restarts, change.restart = false := by
    rw [quiet, Journal.changes]
    exact List.forall_mem_map.2 fun _ _ => rfl
  cases operation with
  | load p =>
    cases idle : c.running with
    | true =>
      have refused : c.load p = ⟨c, [], .error .busy⟩ := if_pos idle
      have hturn : turn = ⟨(c, s), [], true⟩ := by
        show (⟨announce l s (c.load p), (c.load p).journal, true⟩ : Turn _ _) = _
        rw [refused]
        rfl
      rw [hturn]
      exact .inr ⟨List.forall_mem_nil _, id, fun _ _ => id⟩
    | false =>
      have going : (c.machine.load p).next.stop = none := by rw [Machine.load_next _ loadable]
      left
      show (announce l s (c.load p)).1.Faithful ∧ ∃ change ∈ (c.load p).journal.changes true, _
      rw [load_of_loadable idle loadable]
      exact faithful_restart idle going _ _
  | reset =>
    cases idle : c.running with
    | true =>
      have refused : c.reset = ⟨c, [], .error .busy⟩ := if_pos idle
      have hturn : turn = ⟨(c, s), [], true⟩ := by
        show (⟨announce l s c.reset, c.reset.journal, true⟩ : Turn _ _) = _
        rw [refused]
        rfl
      rw [hturn]
      exact .inr ⟨List.forall_mem_nil _, id, fun _ _ => id⟩
    | false =>
      left
      show (announce l s c.reset).1.Faithful ∧ ∃ change ∈ c.reset.journal.changes true, _
      rw [reset_of_idle idle]
      exact faithful_restart idle rfl _ _
  | singleStep =>
    refine .inr ⟨untold rfl, fun h => h.singleStep.heard, fun m stopped h => ?_⟩
    exact Oblivious.heard ((h.singleStep stopped).symm ▸ h)
  | run limit =>
    exact .inr ⟨untold rfl, fun h => h.run l limit s, fun m stopped h => (h.run stopped l limit s).1⟩
  | pause =>
    have idle : c.pause.running ≠ true := Bool.false_ne_true
    exact .inr ⟨untold rfl, fun h => ⟨h.reports, fun busy => absurd busy idle⟩,
      fun m _ h => ⟨h.machine, h.waiting⟩⟩
  | setRate rate =>
    have hnext : turn.next.1 = { c with rate := turn.next.1.rate } := by
      show (c.setRate rate).toOption.getD c = { c with rate := ((c.setRate rate).toOption.getD c).rate }
      unfold setRate
      split <;> rfl
    rw [hnext]
    exact .inr ⟨untold rfl, fun h => ⟨h.reports, h.running⟩, fun m _ h => ⟨h.machine, h.waiting⟩⟩
  | observe s => exact .inr ⟨untold rfl, id, fun _ _ => id⟩

/-! ### Reports -/

/-- What a controller says of its machine once something is finished: a run in which nobody asks for a pause
and which returns, returns the run state that it leaves, this tells whether the machine halted or failed, and it
is not ready; and so does the run state after a single step that finds the machine stopped or stops it. -/
structure Accountable (σ : Type) (c : Controller ι) : Prop where
  run : ∀ (l : Listener σ) (s : σ) (limit : Nat) (state : RunState),
    l.asks s (c.runJournal l limit s) = false → (c.run l limit s).ending = .returned state →
      (c.run l limit s).controller.runState = state ∧
        state.Reports (c.run l limit s).controller.machine.stop ∧ state ≠ .ready
  singleStep : c.singleStep.result = .ok false →
    c.singleStep.next.runState.Reports c.singleStep.next.machine.stop

/-- **A faithful controller is accountable.** -/
theorem Faithful.accountable (h : c.Faithful) : c.Accountable σ where
  run l s limit state quiet returned := by
    have left := run_returns l limit c s returned
    have told := (h.run l limit s).reports
    rw [left] at told
    exact ⟨left, told, h.run_ne_ready quiet returned⟩
  singleStep _ := h.singleStep.reports

/-- A controller that never saw its machine stop says so after the next step, or keeps saying that it runs. -/
theorem Oblivious.not_accountable {m : Machine ι} (h : c.Oblivious m) (stopped : m.isStopped = true)
    (l : Listener σ) (s : σ) : ¬ c.Accountable σ := by
  have untold : ¬ c.runState.Reports c.machine.stop := by
    intro told
    have terminal := told.isTerminal
    rw [h.waiting, h.machine] at terminal
    exact Bool.false_ne_true (terminal.trans stopped)
  intro accountable
  cases running : c.running with
  | true =>
    obtain ⟨-, same, ending⟩ | ⟨idle, -⟩ | ⟨idle, -⟩ := run_cases l 0 c s
    · have journal : l.asks s (c.runJournal l 0 s) = false := by
        rw [runJournal, Controller.run, if_pos running, announce_recording]
        rfl
      obtain ⟨-, told, -⟩ := accountable.run l s 0 _ journal ending
      rw [same] at told
      exact untold told
    · exact Bool.false_ne_true (idle.symm.trans running)
    · exact Bool.false_ne_true (idle.symm.trans running)
  | false =>
    have dead : c.machine.isStopped = true := by rw [h.machine, stopped]
    have hstep : c.singleStep = ⟨c, [], .ok false⟩ := by
      rw [singleStep_of_idle running, cycle_of_isStopped dead]
      rfl
    have told := accountable.singleStep (by rw [hstep])
    rw [hstep] at told
    exact untold told

/-- **A load that fails on the way** clears the machine and leaves the run state: if this is terminal, a run
returns it although the machine is stopped no more. -/
theorem run_after_unfitting_load (idle : c.running = false) (terminal : c.runState.isTerminal = true)
    {p : Program} (unfit : ¬ p.Loadable) (l : Listener σ) (limit : Nat) (s : σ) :
    (c.load p).next.machine.stop = none ∧
      (c.load p).next.run l limit s = ⟨(c.load p).next, s, .returned c.runState⟩ := by
  obtain ⟨violation, found⟩ : ∃ violation, p.violation? = some violation :=
    Option.ne_none_iff_exists'.1 (mt Program.violation?_eq_none_iff.1 unfit)
  have cleared : (c.machine.load p).next.stop = none ∧
      (c.machine.load p).result = .error violation := by
    unfold Machine.load
    dsimp only
    split
    · next other same =>
      rw [found] at same
      cases same
      exact ⟨rfl, rfl⟩
    · next same =>
      rw [found] at same
      cases same
  have hload : (c.load p).next = { c with machine := (c.machine.load p).next } := by
    unfold Controller.load
    rw [if_neg (Bool.eq_false_iff.1 idle)]
    dsimp only
    rw [cleared.2]
  rw [hload]
  refine ⟨cleared.1, ?_⟩
  rw [Controller.run, if_neg (Bool.eq_false_iff.1 idle), if_pos terminal]

/-- A controller of which a run returned that its program failed. -/
def failedOnce : Controller (List Int) :=
  (((new (.new [])).load (.ofWords [950])).next.run attending 10 ()).controller

/-- A program that fails, and a load of a word that is too large: the next run returns errored. -/
theorem failedOnce_after_unfitting_load :
    failedOnce.machine.stop = some (.errored (.unknownOpcode 0 950)) ∧
      ¬ (Program.ofWords [1000]).Loadable ∧
      (failedOnce.load (.ofWords [1000])).next.machine.stop = none ∧
      ((failedOnce.load (.ofWords [1000])).next.run attending 1 ()).ending = .returned .errored := by
  have unfit : ¬ (Program.ofWords [1000]).Loadable := by decide
  have state : failedOnce.runState = .errored := by decide +kernel
  have idle : failedOnce.running = false := by decide +kernel
  have terminal : failedOnce.runState.isTerminal = true := by rw [state]; rfl
  obtain ⟨cleared, run⟩ := run_after_unfitting_load idle terminal unfit attending 1 ()
  refine ⟨by decide +kernel, unfit, cleared, ?_⟩
  rw [run, state]

namespace History

omit [InputSource ι] in
/-- A controller that takes over a machine, whatever was asked of it before. -/
def takeOver (m : Machine ι) (s : σ) : History ι σ := ⟨.new m, s, [], [], true⟩

omit [InputSource ι] in
/-- A load or a reset was carried out. -/
def Restarted (h : History ι σ) : Prop := ∃ change ∈ h.changes, change.restart = true

instance (h : History ι σ) : Decidable h.Restarted :=
  inferInstanceAs (Decidable (∃ change ∈ h.changes, _))

/-- What holds of a controller that took over the machine `m`. -/
def Tracks (m : Machine ι) (h : History ι σ) : Prop :=
  (h.controller.Faithful ∧ (m.isStopped = false ∨ h.Restarted)) ∨
    (h.controller.Oblivious m ∧ m.isStopped = true ∧ ¬ h.Restarted)

omit [InputSource ι] in
/-- A controller that takes over a machine is faithful or oblivious, as the machine is stopped or not. -/
theorem tracks_takeOver (m : Machine ι) (s : σ) : (takeOver m s).Tracks m := by
  cases stopped : m.isStopped with
  | false => exact .inl ⟨faithful_of_going rfl rfl stopped, .inl stopped⟩
  | true => exact .inr ⟨⟨rfl, rfl⟩, stopped, by rintro ⟨_, member, -⟩; cases member⟩

/-- An operation keeps track: it restarts the machine, or leaves the controller faithful or oblivious as it
was. -/
theorem Tracks.perform {m : Machine ι} {h : History ι σ} (tracks : h.Tracks m) (l : Listener σ)
    {operation : Operation σ} (loadable : operation.Loadable) : (h.perform l operation).Tracks m := by
  unfold History.perform
  cases finished : h.finished with
  | false => exact tracks
  | true =>
    rw [if_pos rfl]
    rcases ask_cases l h.controller h.listener loadable with
      ⟨faithful, change, member, restart⟩ | ⟨untold, faithful, oblivious⟩
    · exact .inl ⟨faithful, .inr ⟨change, List.mem_append_right _ member, restart⟩⟩
    · rcases tracks with ⟨before, known⟩ | ⟨before, stopped, unchanged⟩
      · refine .inl ⟨faithful before, known.imp_right ?_⟩
        rintro ⟨change, member, restart⟩
        exact ⟨change, List.mem_append_left _ member, restart⟩
      · refine .inr ⟨oblivious m stopped before, stopped, ?_⟩
        rintro ⟨change, member, restart⟩
        rcases List.mem_append.1 member with earlier | later
        · exact unchanged ⟨change, earlier, restart⟩
        · rw [untold change later] at restart
          cases restart

/-- **So do any operations in order.** -/
theorem Tracks.performAll {m : Machine ι} {h : History ι σ} (tracks : h.Tracks m) (l : Listener σ)
    {operations : List (Operation σ)} (loadable : ∀ operation ∈ operations, operation.Loadable) :
    (h.performAll l operations).Tracks m := by
  induction operations generalizing h with
  | nil => exact tracks
  | cons operation rest ih =>
    obtain ⟨hfirst, hrest⟩ := List.forall_mem_cons.1 loadable
    exact ih (tracks.perform l hfirst) hrest

/-- A controller of a new machine is faithful, whatever was asked of it. -/
theorem faithful_performAll (input : ι) (s : σ) {operations : List (Operation σ)}
    (loadable : ∀ operation ∈ operations, operation.Loadable) :
    ((new input s).performAll l operations).controller.Faithful := by
  rcases (tracks_takeOver (.new input) s).performAll l loadable with ⟨faithful, -⟩ | ⟨-, stopped, -⟩
  · exact faithful
  · cases stopped

/-- **A controller reports how its machine stopped exactly if it took over a machine that could go on**, or has
loaded or reset it since. Over a machine that was stopped before, and until it is loaded or reset, the controller
never reports the stop: nothing that it is asked changes the machine, a run returns ready, and a single step
leaves it as it is. -/
theorem accountable_iff (m : Machine ι) (observers : Listener σ) (s : σ)
    (operations : List (Operation σ)) (loadable : ∀ operation ∈ operations, operation.Loadable) :
    let h := (takeOver m s).performAll observers operations
    (h.controller.Accountable σ ↔ m.isStopped = false ∨ h.Restarted) ∧
      (m.isStopped = true → ¬ h.Restarted →
        h.controller.machine = m ∧ h.controller.runState.isTerminal = false ∧
          (h.controller.running = false → h.controller.singleStep = ⟨h.controller, [], .ok false⟩) ∧
          ∀ (l : Listener σ) (s : σ) (limit : Nat),
            (h.controller.run l limit s).controller.machine = m ∧
              (h.controller.run l limit s).controller.runState.isTerminal = false ∧
              (h.controller.running = false → Rate.hasDuration h.controller.rate = true → 0 < limit →
                (h.controller.run l limit s).ending = .returned .ready)) := by
  intro h
  rcases (tracks_takeOver m s).performAll observers loadable with
    ⟨faithful, known⟩ | ⟨oblivious, stopped, unchanged⟩
  · refine ⟨⟨fun _ => known, fun _ => faithful.accountable⟩, fun stopped unchanged => ?_⟩
    rcases known with going | restarted
    · exact absurd (going.symm.trans stopped) Bool.false_ne_true
    · exact absurd restarted unchanged
  · refine ⟨⟨fun accountable => ?_, fun known => ?_⟩,
      fun _ _ => ⟨oblivious.machine, oblivious.waiting, ?_, ?_⟩⟩
    · exact absurd accountable (oblivious.not_accountable stopped observers s)
    · rcases known with going | restarted
      · exact absurd (going.symm.trans stopped) Bool.false_ne_true
      · exact absurd restarted unchanged
    · intro idle
      have dead : h.controller.machine.isStopped = true := by rw [oblivious.machine, stopped]
      rw [singleStep_of_idle idle, cycle_of_isStopped dead]
      rfl
    · intro l s limit
      obtain ⟨after, ready⟩ := oblivious.run stopped l limit s
      exact ⟨after.machine, after.waiting, ready⟩

/-- A machine that has executed its `HALT`. -/
def haltedBefore : Machine (List Int) := (((Machine.new []).load (.ofWords [0])).next.steps 1).next

/-- A run and a single step of the halted machine, and then a word that stands for no instruction. -/
def reloading : List (Operation Unit) := [.run 10, .singleStep, .load (.ofWords [950])]

/-- Once a program was loaded a run returns how it failed; before that the controller is not accountable. -/
theorem accountable_iff_haltedBefore :
    (∀ operation ∈ reloading, operation.Loadable) ∧
      ((takeOver haltedBefore ()).performAll attending reloading).controller.Accountable Unit ∧
      (((takeOver haltedBefore ()).performAll attending reloading).controller.run attending 10 ()).ending =
        .returned .errored ∧
      (∀ operation ∈ reloading.take 2, operation.Loadable) ∧
      ¬ ((takeOver haltedBefore ()).performAll attending (reloading.take 2)).controller.Accountable Unit := by
  have fits : ∀ operation ∈ reloading, operation.Loadable := by decide
  have fitsBefore : ∀ operation ∈ reloading.take 2, operation.Loadable := by decide
  obtain ⟨later, -⟩ := accountable_iff haltedBefore attending () reloading fits
  obtain ⟨earlier, -⟩ := accountable_iff haltedBefore attending () (reloading.take 2) fitsBefore
  refine ⟨fits, later.2 (by decide +kernel), by decide +kernel, fitsBefore, fun accountable => ?_⟩
  exact absurd (earlier.1 accountable) (by decide +kernel)

/-- **A run can return ready over a halted machine**, without a pause and with no call before it. A single step
does no better. -/
theorem run_misreports :
    haltedBefore.stop = some (.halted .halt) ∧
      attending.asks () ((Controller.new haltedBefore).runJournal attending 1 ()) = false ∧
      ((Controller.new haltedBefore).run attending 1 ()).ending = .returned .ready ∧
      ((Controller.new haltedBefore).run attending 1 ()).controller.machine.stop =
        some (.halted .halt) ∧
      (Controller.new haltedBefore).singleStep.result.toOption = some false ∧
      (Controller.new haltedBefore).singleStep.next.runState = .ready := by
  decide +kernel

end History
end Controller
end DecimalMachine
