/-
# What a controller tells

A controller tells its listeners of every change of its run state, and of every cycle that is complete by
its number. The moves from one run state to another are few:

| from | to |
| --- | --- |
| ready | any run state |
| running | ready, halted, errored |
| halted, errored | ready, by a load or a reset |

`Leads` says that the changes that were told are such moves from one run state to another, and
`Journal.Counts` that the numbers that were told count from one number of cycles to another. Both compose
along an append.
-/

import DecimalMachine.Control.Controller
import DecimalMachine.Proofs.Machine.Fetches
import Mathlib.Data.List.Chain

namespace DecimalMachine

namespace RunState

/-- What a controller says of its machine while no run is going on. -/
def settled : Option Stop → RunState
  | none => ready
  | some (.halted _) => halted
  | some (.errored _) => errored

/-- Of a machine that stopped the run state of the stop and the settled one are the same. -/
theorem ofStop_of_isSome {stop : Option Stop} (h : stop.isSome = true) :
    ofStop stop = settled stop := by
  rcases stop with _ | ⟨reason | fault⟩
  · cases h
  · rfl
  · rfl

/-- What a controller says of its machine is terminal exactly if the machine stopped. -/
theorem isTerminal_settled (stop : Option Stop) : (settled stop).isTerminal = stop.isSome := by
  rcases stop with _ | ⟨reason | fault⟩ <;> rfl

/-- A controller says halted exactly of a machine that halted. -/
theorem settled_eq_halted_iff {stop : Option Stop} :
    settled stop = halted ↔ ∃ reason, stop = some (.halted reason) := by
  rcases stop with _ | ⟨reason | fault⟩ <;> simp [settled]

/-- A controller says errored exactly of a machine that failed. -/
theorem settled_eq_errored_iff {stop : Option Stop} :
    settled stop = errored ↔ ∃ fault, stop = some (.errored fault) := by
  rcases stop with _ | ⟨reason | fault⟩ <;> simp [settled]

/-- A controller says ready exactly of a machine that did not stop. -/
theorem settled_eq_ready_iff {stop : Option Stop} : settled stop = ready ↔ stop = none := by
  rcases stop with _ | ⟨reason | fault⟩ <;> simp [settled]

/-- While no run is going on a controller never says running. -/
theorem settled_ne_running (stop : Option Stop) : settled stop ≠ running := by
  rcases stop with _ | ⟨reason | fault⟩ <;> nofun

/-- The moves from one run state to another. Some of them `restart` the machine. -/
def Move (restart : Bool) : RunState → RunState → Prop
  | ready, _ => True
  | running, after => after ≠ running
  | halted, after | errored, after => after = ready ∧ restart = true

/-- From ready every run state can be entered. -/
theorem move_ready (restart : Bool) (after : RunState) : Move restart ready after := trivial

/-- A load or a reset makes any machine ready. -/
theorem move_restart (before : RunState) : Move true before ready := by
  cases before with
  | ready => trivial
  | running => exact RunState.noConfusion
  | halted | errored => exact ⟨rfl, rfl⟩

end RunState

namespace Event

/-- The run state that an event tells, if any. -/
def runState? : Event → Option RunState
  | runStateChanged state => some state
  | _ => none

/-- The cycle that an event tells to be complete, if any. -/
def cycle? : Event → Option Nat
  | cycleAdvanced cycles => some cycles
  | _ => none

/-- An event of the machine tells neither a run state nor a cycle. -/
theorem untold_of_not_isControl {e : Event} (h : e.isControl = false) :
    e.runState? = none ∧ e.cycle? = none := by
  cases e with
  | cycleAdvanced cycles => cases h
  | runStateChanged state => cases h
  | registerChanged register value => exact ⟨rfl, rfl⟩
  | memoryWritten address value => exact ⟨rfl, rfl⟩
  | memoryRead address => exact ⟨rfl, rfl⟩
  | flagsChanged flags => exact ⟨rfl, rfl⟩
  | lineExecuted line => exact ⟨rfl, rfl⟩
  | output word => exact ⟨rfl, rfl⟩
  | notice severity message => exact ⟨rfl, rfl⟩

end Event

namespace Journal

/-- The run states that a journal tells, in order. -/
def runStates (j : Journal) : List RunState := j.events.filterMap Event.runState?

/-- The cycles that a journal tells to be complete, in order. -/
def cycleNumbers (j : Journal) : List Nat := j.events.filterMap Event.cycle?

/-- Two journals tell the run states of the first and then those of the second. -/
@[simp] theorem runStates_append (j k : Journal) :
    (j ++ k).runStates = j.runStates ++ k.runStates := by
  simp [runStates]

/-- Two journals tell the cycles of the first and then those of the second. -/
@[simp] theorem cycleNumbers_append (j k : Journal) :
    (j ++ k).cycleNumbers = j.cycleNumbers ++ k.cycleNumbers := by
  simp [cycleNumbers]

/-- A machine alone tells neither. -/
theorem silent_of_machineEvents {j : Journal} (h : j.machineEvents = j.events) :
    j.runStates = [] ∧ j.cycleNumbers = [] := by
  have untold : ∀ e ∈ j.events, e.runState? = none ∧ e.cycle? = none := by
    intro e member
    refine Event.untold_of_not_isControl ?_
    simpa using List.filter_eq_self.1 h e member
  exact ⟨List.filterMap_eq_nil_iff.2 fun e member => (untold e member).1,
    List.filterMap_eq_nil_iff.2 fun e member => (untold e member).2⟩

/-- The cycles that a journal tells to be complete lead from one number of cycles to another. -/
structure Counts (j : Journal) (before after : Nat) : Prop where
  le : before ≤ after
  numbers : j.cycleNumbers = List.range' (before + 1) (after - before)

namespace Counts

/-- A journal that tells no cycle counts none. -/
theorem of_silent {j : Journal} (silent : j.cycleNumbers = []) (cycles : Nat) :
    j.Counts cycles cycles where
  le := Nat.le_refl cycles
  numbers := by
    rw [silent, Nat.sub_self]
    rfl

/-- A journal that tells of one cycle more. -/
theorem of_next {j : Journal} {cycles : Nat} (next : j.cycleNumbers = [cycles + 1]) :
    j.Counts cycles (cycles + 1) where
  le := Nat.le_succ cycles
  numbers := by
    rw [next, Nat.add_sub_cancel_left]
    rfl

/-- Journals that count on from each other count from the beginning to the end. -/
theorem append {j k : Journal} {before middle after : Nat} (first : j.Counts before middle)
    (others : k.Counts middle after) : (j ++ k).Counts before after where
  le := Nat.le_trans first.le others.le
  numbers := by
    have hfirst := first.le
    have hothers := others.le
    have hstart : middle + 1 = before + 1 + 1 * (middle - before) := by omega
    have hlength : middle - before + (after - middle) = after - before := by omega
    rw [cycleNumbers_append, first.numbers, others.numbers, hstart, List.range'_append, hlength]

end Counts

end Journal

/-! ### Changes of the run state -/

/-- A change of the run state, and whether a load or a reset made it. -/
structure Change where
  state : RunState
  restart : Bool
  deriving DecidableEq

namespace Change

/-- A change that may come next after another. -/
def MayFollow (before after : Change) : Prop :=
  RunState.Move after.restart before.state after.state

end Change

/-- The changes of the run state that a journal tells. -/
def Journal.changes (j : Journal) (restart : Bool) : List Change :=
  j.runStates.map fun state => ⟨state, restart⟩

/-- Each of the changes is a move from the run state that was told before it, and they lead from one run
state to another. -/
def Leads (before : RunState) : List Change → RunState → Prop
  | [], after => after = before
  | change :: rest, after =>
    RunState.Move change.restart before change.state ∧ Leads change.state rest after

namespace Leads

variable {before middle after : RunState} {changes others : List Change}

/-- Changes that lead on from each other lead from the beginning to the end. -/
theorem append (first : Leads before changes middle) (second : Leads middle others after) :
    Leads before (changes ++ others) after := by
  induction changes generalizing before with
  | nil =>
    rw [Leads] at first
    rwa [first] at second
  | cons change rest ih => exact ⟨first.1, ih first.2⟩

/-- **The last change tells the run state.** -/
theorem last (h : Leads before changes after) :
    (changes.map Change.state).getLastD before = after := by
  induction changes generalizing before with
  | nil => exact h.symm
  | cons change rest ih =>
    rw [List.map_cons, List.getLastD_cons]
    exact ih h.2

/-- **One change may follow the other.** -/
theorem isChain (h : Leads before changes after) : changes.IsChain Change.MayFollow := by
  induction changes generalizing before with
  | nil => exact .nil
  | cons change rest ih =>
    refine (ih h.2).cons fun next first => ?_
    cases rest with
    | nil => cases first
    | cons second rest =>
      cases first
      exact h.2.1

end Leads

end DecimalMachine
