/-
# What the events of a step tell

The events of a step tell whether it fetched an instruction: a step that fetches sets the
instruction register, one that finds the machine stopped or its control outside the program does
not. No event of a step is one of a controller.
-/

import DecimalMachine.Proofs.Machine.Loaded

namespace DecimalMachine

namespace Event

/-- An event of a controller: a cycle that is complete, or a change of the run state. -/
def isControl : Event → Bool
  | cycleAdvanced _ | runStateChanged _ => true
  | _ => false

/-- An event that tells of a word in the instruction register. -/
def isFetch : Event → Bool
  | registerChanged .ir _ => true
  | _ => false

end Event

namespace Journal

/-- The events of a journal without those of a controller. -/
def machineEvents (j : Journal) : List Event := j.events.filter fun e => !e.isControl

/-- The events of the machine are told part by part. -/
theorem machineEvents_append (j k : Journal) :
    (j ++ k).machineEvents = j.machineEvents ++ k.machineEvents := by
  simp [machineEvents]

/-- Where the controller told nothing, all events are those of the machine. -/
theorem machineEvents_eq_events {j : Journal} (h : ∀ e ∈ j.events, e.isControl = false) :
    j.machineEvents = j.events := by
  refine List.filter_eq_self.2 fun e member => ?_
  rw [h e member]
  rfl

end Journal

namespace Progress

variable {ι : Type} [InputSource ι] {p q : Progress ι}

/-- An effect adds events to those before it, and none of a controller. -/
theorem Effect.events (h : Effect p q) :
    ∃ added, q.journal.events = p.journal.events ++ added ∧ ∀ e ∈ added, e.isControl = false := by
  cases h with
  | log level message => exact ⟨[], by simp, nofun⟩
  | @remark e h =>
    refine ⟨[e], events_emit p e, List.forall_mem_singleton.2 ?_⟩
    cases e <;> first | exact absurd h not_false | rfl
  | send => exact ⟨[_], events_emit p _, List.forall_mem_singleton.2 rfl⟩
  | @read address h =>
    refine ⟨_, events_readCell p address, ?_⟩
    simp [Event.isControl]
  | setRegister register value h bound =>
    exact ⟨[_], events_setRegister p register value, List.forall_mem_singleton.2 rfl⟩
  | @setAc value bound =>
    refine ⟨_, events_setAc p value, ?_⟩
    simp [Event.isControl]
  | @write address value h bound =>
    exact ⟨[_], events_writeCell p address value, List.forall_mem_singleton.2 rfl⟩
  | ask => exact ⟨[], by simp, nofun⟩

/-- Effects add events, and none of the controller. -/
theorem Effects.events (h : Effects p q) :
    ∃ added, q.journal.events = p.journal.events ++ added ∧ ∀ e ∈ added, e.isControl = false := by
  induction h with
  | refl => exact ⟨[], (List.append_nil _).symm, nofun⟩
  | tail _ effect ih =>
    obtain ⟨before, hbefore, quietBefore⟩ := ih
    obtain ⟨added, hadded, quiet⟩ := effect.events
    refine ⟨before ++ added, ?_, List.forall_mem_append.2 ⟨quietBefore, quiet⟩⟩
    rw [hadded, hbefore, List.append_assoc]

omit [InputSource ι] in
/-- A fetch tells that it is one. -/
theorem isFetch_fetch (p : Progress ι) (address : Nat) :
    (p.fetch address).journal.events.any Event.isFetch = true := by
  unfold fetch
  dsimp only
  split <;> simp [Event.isFetch]

end Progress

namespace Machine

variable {ι : Type} [InputSource ι] {m : Machine ι}

/-- Whether the next step fetches an instruction. -/
def fetches (m : Machine ι) : Bool := m.step.journal.events.any Event.isFetch

/-- How many of the next `count` steps fetch an instruction. -/
def fetchCount : (count : Nat) → Machine ι → Nat
  | 0, _ => 0
  | count + 1, m => m.fetches.toNat + fetchCount count m.step.next

/-- Fetches add up. -/
theorem fetchCount_add (a b : Nat) (m : Machine ι) :
    m.fetchCount (a + b) = m.fetchCount a + (m.steps a).next.fetchCount b := by
  induction a generalizing m with
  | zero => rw [Nat.zero_add, fetchCount, Nat.zero_add]; rfl
  | succ a ih => rw [Nat.succ_add, fetchCount, fetchCount, ih, steps_succ, Nat.add_assoc]

/-- **A step fetches** exactly if the machine is not stopped and its control is within the program.
-/
theorem fetches_eq (m : Machine ι) : m.fetches = (!m.isStopped && !m.pastEnd) := by
  unfold fetches
  cases stopped : m.isStopped with
  | true =>
    rw [step_of_isStopped stopped]
    rfl
  | false =>
    rw [step_of_not_isStopped stopped]
    cases inside : m.pastEnd with
    | true =>
      rw [cycle_of_pastEnd inside]
      rfl
    | false =>
      obtain ⟨q, hq, hjournal, -⟩ := Progress.settle_effects m.cycle.1 m.cycle.2
      obtain ⟨added, hadded, -⟩ :=
        Progress.Effects.events ((m.cycle_effects_of_inside inside).trans hq)
      rw [hjournal, hadded, List.any_append, fetched, Progress.isFetch_fetch]
      rfl

/-- A step tells nothing for the controller. -/
theorem machineEvents_step (m : Machine ι) :
    m.step.journal.machineEvents = m.step.journal.events := by
  obtain ⟨q, hq, hjournal, -⟩ := m.step_effects
  obtain ⟨added, hadded, quiet⟩ := hq.events
  refine Journal.machineEvents_eq_events ?_
  rw [hjournal, hadded]
  exact quiet

/-- **The machine never speaks for its controller.** -/
theorem machineEvents_steps (count : Nat) (m : Machine ι) :
    (m.steps count).journal.machineEvents = (m.steps count).journal.events := by
  induction count generalizing m with
  | zero => rfl
  | succ count ih =>
    rw [steps_succ, Journal.machineEvents_append, Journal.events_append, machineEvents_step, ih]

omit [InputSource ι] in
/-- Neither does a load. -/
theorem machineEvents_load (m : Machine ι) {p : Program} (h : p.Loadable) :
    (m.load p).journal.machineEvents = (m.load p).journal.events := by
  refine Journal.machineEvents_eq_events fun e member => ?_
  rw [m.events_load h] at member
  simp only [List.mem_append, List.mem_map, List.mem_singleton] at member
  rcases member with (⟨register, -, rfl⟩ | rfl) | ⟨entry, -, rfl⟩ <;> rfl

end Machine
end DecimalMachine
