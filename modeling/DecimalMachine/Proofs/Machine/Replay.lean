/-
# Events as a change log

An observer that holds a copy of the registers, the flags and the memory can follow a machine by its
events alone:

| event | what it changes in the copy |
| --- | --- |
| `registerChanged` | the register |
| `memoryWritten` | the cell |
| `flagsChanged` | both flags |
| any other | nothing |

`State.followAll` is the copy after a list of events. Every effect of a step keeps the copy equal to the
state, so it is equal after any number of steps, whatever the state was to begin with and even if a step
ends as a violation.

A read is told while the cell still holds what `MBR` is told to hold next. Within a step no cell is written
before one is read, so this is also what the cell held when the step began.
-/

import DecimalMachine.Proofs.Machine.Silence

namespace DecimalMachine

namespace Event

/-- The word that an event tells of in `MBR`. -/
def busWord? : Event → Option Int
  | registerChanged .mbr word => some word
  | _ => none

/-- Whether an event tells of a read. -/
def isRead : Event → Bool
  | memoryRead _ => true
  | _ => false

/-- Whether an event tells of a write. -/
def isWrite : Event → Bool
  | memoryWritten _ _ => true
  | _ => false

/-- A read is no event of registers, flags, outputs and notices. -/
theorem isQuiet_isRead : IsQuiet isRead := ⟨fun _ _ => rfl, fun _ => rfl, fun _ => rfl, fun _ _ => rfl⟩

/-- Neither is a write. -/
theorem isQuiet_isWrite : IsQuiet isWrite := ⟨fun _ _ => rfl, fun _ => rfl, fun _ => rfl, fun _ _ => rfl⟩

end Event

namespace State

/-- A copy of a state after an event was heard. -/
def follow (s : State) : Event → State
  | .registerChanged register value => s.setRegister register value
  | .memoryWritten address value => s.setCell address value
  | .flagsChanged flags => s.setFlags flags
  | .memoryRead _ | .cycleAdvanced _ | .runStateChanged _ | .lineExecuted _ | .output _
  | .notice _ _ => s

/-- A copy of a state after events were heard. -/
def followAll (s : State) (events : List Event) : State := events.foldl follow s

variable (s : State)

/-- A copy follows the first event first. -/
@[simp] theorem followAll_cons (e : Event) (rest : List Event) :
    s.followAll (e :: rest) = (s.follow e).followAll rest := rfl

/-- A copy follows events in two parts. -/
@[simp] theorem followAll_append (before after : List Event) :
    s.followAll (before ++ after) = (s.followAll before).followAll after := List.foldl_append

/-- Without a write the memory of a copy stays. -/
theorem memory_followAll {events : List Event} (h : ∀ e ∈ events, e.isWrite = false) :
    (s.followAll events).memory = s.memory := by
  induction events generalizing s with
  | nil => rfl
  | cons e rest ih =>
    obtain ⟨he, hrest⟩ := List.forall_mem_cons.1 h
    rw [followAll_cons, ih _ hrest]
    cases e with
    | memoryWritten => cases he
    | _ => rfl

/-! ### Reads -/

/-- Each read among the events is followed by a word in `MBR`, which is what the copy of the state `s` has
in the cell when the read is told. -/
def ReadsTold (events : List Event) : Prop :=
  ∀ before address after, events = before ++ .memoryRead address :: after →
    after.findSome? Event.busWord? = some ((s.followAll before).memory.get address)

variable {s}

/-- Where nothing is read, every read is told right. -/
theorem readsTold_of_no_read {events : List Event} (h : ∀ e ∈ events, e.isRead = false) :
    s.ReadsTold events := by
  rintro before address after rfl
  have told := h (.memoryRead address) (by simp)
  cases told

/-- Reads are told right in all if they are in both parts, with the copy moved on in between. -/
theorem ReadsTold.append {before after : List Event} (hbefore : s.ReadsTold before)
    (hafter : (s.followAll before).ReadsTold after) : s.ReadsTold (before ++ after) := by
  intro left address right split
  rcases List.append_eq_append_iff.1 split with ⟨between, rfl, hright⟩ | ⟨between, hleft, hright⟩
  · rw [followAll_append]
    exact hafter between address right hright
  · cases between with
    | nil =>
      rw [List.append_nil] at hleft
      subst hleft
      exact hafter [] address right hright.symm
    | cons e between =>
      -- The read is among the first events, and so is the word that follows it.
      rw [List.cons_append] at hright
      obtain ⟨rfl, rfl⟩ := List.cons.inj hright
      rw [List.findSome?_append, hbefore left address between hleft]
      rfl

/-- A read is followed by the word that the cell holds. -/
theorem readsTold_readCell (address : Nat) :
    s.ReadsTold [.registerChanged .mar address, .memoryRead address,
      .registerChanged .mbr (s.memory.get address)] := by
  have hmar : s.ReadsTold [.registerChanged .mar address] :=
    readsTold_of_no_read (List.forall_mem_singleton.2 rfl)
  refine hmar.append ?_
  intro before other after split
  cases before with
  | nil =>
    obtain ⟨same, rfl⟩ := List.cons.inj split
    cases same
    rfl
  | cons e before =>
    -- After the read itself there is none.
    have told : Event.memoryRead other ∈ [Event.registerChanged .mbr (s.memory.get address)] := by
      rw [(List.cons.inj split).2]
      simp
    simp at told

end State

namespace Progress

variable {ι : Type} [InputSource ι] {p q : Progress ι}

/-- A copy of the state `s` that follows the events is the state of the machine, and has in each cell that
is read what is told of it. -/
structure Followed (s : State) (p : Progress ι) : Prop where
  copy : s.followAll p.journal.events = p.machine.state
  reads : s.ReadsTold p.journal.events

omit [InputSource ι] in
/-- An effect that adds events which tell its change, and tell its reads. -/
theorem Followed.add {s : State} (hp : p.Followed s) (added : List Event)
    (events : q.journal.events = p.journal.events ++ added)
    (copy : p.machine.state.followAll added = q.machine.state)
    (reads : p.machine.state.ReadsTold added) : q.Followed s where
  copy := by rw [events, State.followAll_append, hp.copy, copy]
  reads := by
    rw [events]
    refine hp.reads.append ?_
    rw [hp.copy]
    exact reads

/-- **A copy follows every effect.** -/
theorem Effect.followed {s : State} (h : Effect p q) (hp : p.Followed s) : q.Followed s := by
  cases h with
  | log level message =>
    exact hp.add [] (by simp) rfl (State.readsTold_of_no_read nofun)
  | @remark e h =>
    refine hp.add _ (events_emit p e) ?_ (State.readsTold_of_no_read ?_)
    · cases e <;> first | exact absurd h not_false | rfl
    · rw [List.forall_mem_singleton]
      cases e <;> first | exact absurd h not_false | rfl
  | send =>
    exact hp.add _ (events_emit p _) rfl
      (State.readsTold_of_no_read (List.forall_mem_singleton.2 rfl))
  | @read address h =>
    exact hp.add _ (events_readCell p address) rfl (State.readsTold_readCell address)
  | setRegister register value h bound =>
    exact hp.add _ (events_setRegister p register value) rfl
      (State.readsTold_of_no_read (List.forall_mem_singleton.2 rfl))
  | @setAc value bound =>
    refine hp.add _ (events_setAc p value) rfl (State.readsTold_of_no_read ?_)
    simp [Event.isRead]
  | @write address value h bound =>
    exact hp.add _ (events_writeCell p address value) rfl
      (State.readsTold_of_no_read (List.forall_mem_singleton.2 rfl))
  | ask => exact hp.add [] (by simp) rfl (State.readsTold_of_no_read nofun)

/-- A copy follows every chain of effects. -/
theorem Effects.followed {s : State} (h : Effects p q) (hp : p.Followed s) : q.Followed s := by
  induction h with
  | refl => exact hp
  | tail _ effect ih => exact effect.followed ih

/-! ### Within a step no cell is written before one is read -/

/-- What was told is two parts: in the first no cell is written, in the second none is read. -/
def ReadsFirst (p : Progress ι) : Prop :=
  ∃ reading writing, p.journal.events = reading ++ writing ∧
    (∀ e ∈ reading, e.isWrite = false) ∧ ∀ e ∈ writing, e.isRead = false

omit [InputSource ι] in
/-- Where nothing is written, no read comes after a write. -/
theorem ReadsFirst.of_no_write {m : Machine ι} (h : AddsNo Event.isWrite ⟨m, []⟩ p) :
    p.ReadsFirst := by
  obtain ⟨reading, hreading, quiet⟩ := h
  exact ⟨reading, [], by rw [hreading, List.append_nil]; rfl, quiet, nofun⟩

omit [InputSource ι] in
/-- What reads nothing can be added behind. -/
theorem ReadsFirst.add (h : p.ReadsFirst) (hq : AddsNo Event.isRead p q) : q.ReadsFirst := by
  obtain ⟨reading, writing, hp, noWrite, noRead⟩ := h
  obtain ⟨added, hadded, quiet⟩ := hq
  refine ⟨reading, writing ++ added, ?_, noWrite, List.forall_mem_append.2 ⟨noRead, quiet⟩⟩
  rw [hadded, hp, List.append_assoc]

omit [InputSource ι] in
/-- Before a read no cell is written. -/
theorem ReadsFirst.isWrite (h : p.ReadsFirst) {before after : List Event} {address : Nat}
    (split : p.journal.events = before ++ .memoryRead address :: after) :
    ∀ e ∈ before, e.isWrite = false := by
  obtain ⟨reading, writing, hp, noWrite, noRead⟩ := h
  rw [hp] at split
  rcases List.append_eq_append_iff.1 split with ⟨between, -, hwriting⟩ | ⟨between, hreading, -⟩
  · have told := noRead (.memoryRead address) (by rw [hwriting]; simp)
    cases told
  · intro e member
    exact noWrite e (by rw [hreading]; exact List.mem_append_left between member)

end Progress

namespace Machine

variable {ι : Type} [InputSource ι] {m : Machine ι}

/-- A step reads before it writes, for `STORE` reads nothing and writes last. -/
theorem readsFirst_cycle (m : Machine ι) : m.cycle.1.ReadsFirst := by
  cases inside : m.pastEnd with
  | true =>
    rw [cycle_of_pastEnd inside]
    exact ⟨[], [], rfl, nofun, nofun⟩
  | false =>
    have hfetched : Progress.AddsNo Event.isWrite ⟨m, []⟩ m.fetched :=
      Progress.addsNo_fetch _ Event.isQuiet_isWrite (fun _ => rfl) (fun _ => rfl) m.address
    rw [cycle_of_inside inside]
    split
    · exact .of_no_write hfetched
    · next i _ =>
      have hannounced := hfetched.trans (Progress.addsNo_announce _ Event.isQuiet_isWrite m.address i)
      have hexecuted : (m.executed i).1.ReadsFirst := by
        by_cases store : i.opcode = .store
        · have hstore : (m.executed i).1 =
              ((m.fetched.announce m.address i).store i.operand).1 := by
            rw [executed, Progress.execute, store]
          rw [hstore]
          exact (Progress.ReadsFirst.of_no_write hannounced).add
            (Progress.addsNo_store _ Event.isQuiet_isRead (fun _ _ => rfl) _)
        · exact .of_no_write (hannounced.trans (Progress.addsNo_execute _ Event.isQuiet_isWrite
            (fun _ => rfl) m.address fun isStore => absurd isStore store))
      split
      · exact hexecuted
      · exact hexecuted

/-- The end of a step neither reads nor writes. -/
theorem readsFirst_step (m : Machine ι) :
    Progress.ReadsFirst ⟨m.step.next, m.step.journal⟩ := by
  cases stopped : m.isStopped with
  | true =>
    rw [step_of_isStopped stopped]
    exact ⟨[], [], rfl, nofun, nofun⟩
  | false =>
    rw [step_of_not_isStopped stopped]
    exact m.readsFirst_cycle.add (Progress.addsNo_settle _ Event.isQuiet_isRead _)

/-- **A copy follows a step**, and each read of the step tells what the cell held before it. -/
theorem followed_step (m : Machine ι) :
    Progress.Followed m.state ⟨m.step.next, m.step.journal⟩ := by
  obtain ⟨q, hq, hjournal, hnext⟩ := m.step_effects
  have followed := hq.followed (s := m.state) ⟨rfl, State.readsTold_of_no_read nofun⟩
  rw [hnext, hjournal]
  exact ⟨followed.copy, followed.reads⟩

/-! ### Numbers of steps -/

/-- **A copy that follows the events of any number of steps is the state after them.** -/
theorem followAll_steps (count : Nat) (m : Machine ι) :
    m.state.followAll (m.steps count).journal.events = (m.steps count).next.state := by
  induction count generalizing m with
  | zero => rfl
  | succ count ih =>
    rw [steps_succ, Journal.events_append, State.followAll_append, m.followed_step.copy, ih]

/-- Every read in any number of steps is told with the word that the copy holds at that moment. -/
theorem readsTold_steps (count : Nat) (m : Machine ι) :
    m.state.ReadsTold (m.steps count).journal.events := by
  induction count generalizing m with
  | zero => exact State.readsTold_of_no_read nofun
  | succ count ih =>
    rw [steps_succ, Journal.events_append]
    refine m.followed_step.reads.append ?_
    rw [m.followed_step.copy]
    exact ih m.step.next

/-- A read is told in one of the steps, which wrote no cell before. -/
theorem exists_step_of_read {count : Nat} {before after : List Event} {address : Nat}
    (split : (m.steps count).journal.events = before ++ .memoryRead address :: after) :
    ∃ done early, done < count ∧ before = (m.steps done).journal.events ++ early ∧
      ∀ e ∈ early, e.isWrite = false := by
  induction count generalizing m before with
  | zero => simp [Machine.steps] at split
  | succ count ih =>
    rw [steps_succ, Journal.events_append] at split
    rcases List.append_eq_append_iff.1 split with ⟨between, rfl, hrest⟩ | ⟨between, hfirst, hrest⟩
    · obtain ⟨done, early, below, rfl, quiet⟩ := ih hrest
      refine ⟨done + 1, early, by omega, ?_, quiet⟩
      rw [steps_succ, Journal.events_append, List.append_assoc]
    · cases between with
      | nil =>
        -- The read is the first event of the later steps, so nothing is before it there.
        rw [List.append_nil] at hfirst
        have none : (m.step.next.steps count).journal.events = [] ++ .memoryRead address :: after :=
          hrest.symm
        obtain ⟨done, early, below, hnil, quiet⟩ := ih none
        refine ⟨done + 1, early, by omega, ?_, quiet⟩
        rw [steps_succ, Journal.events_append, List.append_assoc, ← hnil, List.append_nil, hfirst]
      | cons e between =>
        rw [List.cons_append] at hrest
        obtain ⟨rfl, -⟩ := List.cons.inj hrest
        exact ⟨0, before, Nat.succ_pos count, rfl, m.readsFirst_step.isWrite hfirst⟩

/-- **The events are a faithful and complete change log.** Whatever state a machine is in, and for any
number of steps, a copy of its registers, flags and memory that follows the events is at the end the state
of the machine. When a read is told, the cell holds, in the copy and in the machine before the step that
reads it, the word that the next event about `MBR` tells; and this step wrote no cell before. -/
theorem steps_changeLog (m : Machine ι) (count : Nat) :
    m.state.followAll (m.steps count).journal.events = (m.steps count).next.state ∧
      ∀ before address after,
        (m.steps count).journal.events = before ++ .memoryRead address :: after →
          after.findSome? Event.busWord? = some ((m.state.followAll before).memory.get address) ∧
          ∃ done early, done < count ∧ before = (m.steps done).journal.events ++ early ∧
            (∀ e ∈ early, e.isWrite = false) ∧
            (m.steps done).next.state.memory = (m.state.followAll before).memory := by
  refine ⟨m.followAll_steps count, fun before address after split => ?_⟩
  obtain ⟨done, early, below, rfl, quiet⟩ := exists_step_of_read split
  refine ⟨m.readsTold_steps count _ address after split, done, early, below, rfl, quiet, ?_⟩
  rw [State.followAll_append, m.followAll_steps done, State.memory_followAll _ quiet]

/-- A machine with `LOAD 4; STORE 2` in front of a zero that is overwritten by `LOAD 5`. -/
def overwriting : Machine (List Int) := ((new []).load (.ofWords [504, 302, 0, 0, 505])).next

/-- The third step reads cell 2, and tells the word that the second one stored there. -/
theorem steps_changeLog_overwriting :
    (overwriting.steps 3).journal.events =
        (overwriting.steps 2).journal.events ++ [.registerChanged .mar 2] ++ .memoryRead 2 ::
          [.registerChanged .mbr 505, .registerChanged .ir 505, .registerChanged .pc 3,
            .lineExecuted 3, .notice .info "02: LOAD 5", .registerChanged .mar 5, .memoryRead 5,
            .registerChanged .mbr 0, .registerChanged .ac 0, .flagsChanged ⟨true, false⟩] ∧
      (overwriting.state.followAll
        ((overwriting.steps 2).journal.events ++ [.registerChanged .mar 2])).memory.get 2 = 505 := by
  have split : (overwriting.steps 3).journal.events =
      (overwriting.steps 2).journal.events ++ [.registerChanged .mar 2] ++ .memoryRead 2 ::
        [.registerChanged .mbr 505, .registerChanged .ir 505, .registerChanged .pc 3,
          .lineExecuted 3, .notice .info "02: LOAD 5", .registerChanged .mar 5, .memoryRead 5,
          .registerChanged .mbr 0, .registerChanged .ac 0, .flagsChanged ⟨true, false⟩] := by
    decide +kernel
  have told := ((overwriting.steps_changeLog 3).2 _ 2 _ split).1
  exact ⟨split, (Option.some.inj told).symm⟩

end Machine
end DecimalMachine
