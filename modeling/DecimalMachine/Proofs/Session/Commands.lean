/-
# Sessions as broadcasts

A command of a session is a call of its rig whose events are all emitted at once, or it uses recorders that
the session holds, or it does neither. So whatever commands a session executes, there are acts that do the
same with its rig and its audience, and what these emit is what the reports tell (`exists_acts`). What is
known of broadcasts is known of sessions.

The one command for which this is not plain is a run of a controller. The session keeps the journal that its
watch heard, and a call keeps a record beside the listener; both heard the same (`watch_journal`).
-/

import DecimalMachine.Proofs.Session.Observers
import DecimalMachine.Session.Basic

namespace DecimalMachine

variable {ι σ : Type}

/-! ### What a listener keeps -/

section Keeping

variable {l : Listener σ} {P : σ → Prop}

/-- What every emission keeps up is kept up by a whole journal. -/
theorem Listener.deliver_preserves (keep : ∀ s running emission, P s → P (l.hear s running emission))
    {s : σ} (h : P s) (running : Bool) (j : Journal) : P (l.deliver running s j).2 := by
  induction j generalizing running s with
  | nil => exact h
  | cons emission rest ih =>
    have first := keep s running emission h
    cases emission <;> exact ih first _

namespace Controller

variable [InputSource ι]

/-- What no emission takes away from a listener holds of it after a run. -/
theorem run_preserves (keep : ∀ s running emission, P s → P (l.hear s running emission)) {s : σ}
    (h : P s) (limit : Nat) (c : Controller ι) : P (run l limit c s).listener := by
  have announced {α : Type} {s : σ} (h : P s) (turn : Turn (Controller ι) α) :
      P (announce l s turn).2 := Listener.deliver_preserves keep h _ _
  have underway (limit : Nat) : ∀ (c : Controller ι) (s : σ), P s → P (runFrom l limit c s).listener := by
    induction limit with
    | zero =>
      intro c s h
      unfold runFrom
      split
      · exact h
      · exact announced h c.finish
    | succ limit ih =>
      intro c s h
      unfold runFrom
      split
      · dsimp only
        have next := announced h c.cycle
        split
        · exact next
        · exact announced next _
        · split
          · exact ih _ _ next
          · exact next
      · exact announced h c.finish
  unfold run
  split
  · dsimp only
    exact announced h _
  · split
    · exact h
    · dsimp only
      split
      · exact underway limit _ _ (announced h c.start)
      · exact announced h c.start

/-- **A watch hears what a call records.** -/
theorem watch_journal (c : Controller ι) (watch : Watch) (limit : Nat) :
    (c.run Watch.listener limit watch).listener.journal.toList =
      watch.journal.toList ++ (c.perform (.run Watch.listener watch limit)).journal := by
  let Kept (s : Watch × Journal) : Prop := s.1.journal.toList = watch.journal.toList ++ s.2
  have keep (s : Watch × Journal) (running : Bool) (emission : Emission) (h : Kept s) :
      Kept (Watch.listener.recording.hear s running emission) := by
    have heard : (s.1.hear running emission).journal = s.1.journal.push emission := by
      cases emission <;> rfl
    show (s.1.hear running emission).journal.toList = watch.journal.toList ++ (s.2 ++ [emission])
    rw [heard, Array.toList_push, h, List.append_assoc]
  have kept : Kept (c.run Watch.listener.recording limit (watch, [])).listener :=
    run_preserves keep (List.append_nil _).symm limit c
  have same := congrArg Run.listener (run_recording Watch.listener watch [] limit c)
  rw [← same]
  exact kept

end Controller

end Keeping

namespace Session

open Broadcast

/-- A session as a broadcast between two commands. -/
def broadcast (s : Session) : Broadcast Feed := ⟨s.rig, [], s.audience⟩

/-! ### Commands to the rig -/

/-- A call that does to a rig what an action did, with the same events. -/
def Action.IsCall (rig : Rig Feed) (action : Action) : Prop :=
  ∃ call : Rig.Call Feed Watch,
    (rig.perform call).next = action.next ∧ (rig.perform call).journal.events = action.journal.events

/-- An answer without an action is a call that adjusts nothing. -/
theorem answer_isCall (rig : Rig Feed) (reply : Reply) : (answer rig reply).IsCall rig := by
  refine ⟨.adjust id, ?_, rfl⟩
  cases rig <;> rfl

/-- A load from a source is a call. -/
theorem loadSource_isCall (rig : Rig Feed) (source : Source) : (loadSource rig source).IsCall rig := by
  have silent : Journal.events (source.log.map .record) = [] := Journal.events_map_record id source.log
  unfold loadSource
  dsimp only
  split
  · refine ⟨.adjust id, ?_, silent.symm⟩
    cases rig <;> rfl
  · next p _ =>
    refine ⟨.load p, rfl, ?_⟩
    rw [Journal.events_append, silent]
    rfl

/-- Every command to a machine is a call. -/
theorem performBare_isCall (machine : Machine Feed) (command : Command) :
    (performBare machine command).IsCall (.bare machine) := by
  cases command with
  | runMachine => exact ⟨.run Watch.listener (.new [] 0) patience, rfl, rfl⟩
  | runLimited limit => exact ⟨.run Watch.listener (.new [] 0) limit, rfl, rfl⟩
  | pokeRegister register value =>
    exact ⟨.adjust fun m => m.setState (m.state.setRegister register value), rfl, rfl⟩
  | pokeMemory address value =>
    refine ⟨.adjust fun m =>
      m.setState { m.state with memory := (m.state.memory.store address value).next }, rfl, ?_⟩
    show [] = Journal.events (machine.state.memory.store address value).journal
    unfold Memory.store
    split <;> rfl
  | peekMemory address =>
    simp only [performBare]
    split <;> exact answer_isCall ..
  | pokeFlags flags => exact ⟨.adjust fun m => m.setState (m.state.setFlags flags), rfl, rfl⟩
  | zeroState => exact ⟨.adjust fun m => m.setState .zero, rfl, rfl⟩
  | _ => exact answer_isCall ..

/-- Every command to a controller is a call. -/
theorem performControlled_isCall (controller : Controller Feed) (command : Command) :
    (performControlled controller command).IsCall (.controlled controller) := by
  cases command with
  | setRate rate =>
    refine ⟨.setRate rate, ?_, ?_⟩
    all_goals
      simp only [Rig.perform, Rig.callController, Controller.perform, performControlled]
      cases controller.setRate rate <;> rfl
  | pause => exact ⟨.pause, rfl, rfl⟩
  | run pauseOn limit watch =>
    refine ⟨.run Watch.listener (.new pauseOn limit) patience, rfl, ?_⟩
    exact congrArg Journal.events (controller.watch_journal (.new pauseOn limit) patience).symm
  | _ => exact answer_isCall ..

/-- **Every command to a rig is a call of the rig.** -/
theorem perform_isCall (rig : Rig Feed) (command : Command) : (perform rig command).IsCall rig := by
  cases command with
  | load source => exact loadSource_isCall rig source
  | step count => exact ⟨.step count, rfl, rfl⟩
  | reset => exact ⟨.reset, rfl, rfl⟩
  | pushInput values =>
    exact ⟨.adjust fun m => m.setInput (m.input.push values), rfl, rfl⟩
  | newInput values => exact ⟨.adjust fun m => m.setInput (.ofList values), rfl, rfl⟩
  | noInput => exact ⟨.adjust fun m => m.setInput m.input.disconnect, rfl, rfl⟩
  | pastEnd => exact answer_isCall ..
  | program => exact answer_isCall ..
  | inputEmpty => exact answer_isCall ..
  | _ =>
    cases rig with
    | bare machine => exact performBare_isCall machine _
    | controlled controller => exact performControlled_isCall controller _

/-! ### All commands -/

/-- Acts that do the same as a command: they leave the session as a broadcast, and emit what its report tells. -/
def Follows (s next : Session) (events : List Event) : Prop :=
  ∃ acts : List (Act Feed Watch), s.broadcast.after acts = next.broadcast ∧
    s.broadcast.emissions acts = events

/-- Commands after commands are acts after acts. -/
theorem Follows.trans {s t u : Session} {events others : List Event} (first : s.Follows t events)
    (second : t.Follows u others) : s.Follows u (events ++ others) := by
  obtain ⟨acts, hafter, hemitted⟩ := first
  obtain ⟨rest, hrest, hothers⟩ := second
  refine ⟨acts ++ rest, ?_, ?_⟩
  · rw [after_append, hafter, hrest]
  · unfold emissions at hemitted hothers ⊢
    rw [along_append, hemitted, hafter, hothers]

/-- Pending events are emitted one by one. -/
theorem emit_all (rig : Rig Feed) (events : List Event) (audience : Audience) :
    let b : Broadcast Feed := ⟨rig, events, audience⟩
    let acts : List (Act Feed Watch) := List.replicate events.length .emit
    b.after acts = ⟨rig, [], audience.emitAll events⟩ ∧ b.emissions acts = events := by
  induction events generalizing audience with
  | nil => exact ⟨rfl, rfl⟩
  | cons e rest ih =>
    obtain ⟨hafter, hemitted⟩ := ih (audience.emit e)
    exact ⟨hafter, congrArg (e :: ·) hemitted⟩

/-- A call is an act, and its events are those that are recorded. -/
theorem follows_of_isCall {s : Session} {action : Action} (h : action.IsCall s.rig) :
    s.Follows ({ s with rig := action.next }.record action.journal.events) action.journal.events := by
  obtain ⟨call, hnext, hevents⟩ := h
  obtain ⟨hafter, hemitted⟩ := emit_all action.next action.journal.events s.audience
  have called : (s.broadcast.perform (.call call : Act Feed Watch)).next =
      ⟨action.next, action.journal.events, s.audience⟩ := by
    rw [← hnext, ← hevents]
    rfl
  refine ⟨.call call :: List.replicate action.journal.events.length .emit, ?_, ?_⟩
  · rw [after, called]
    exact hafter
  · unfold emissions at hemitted ⊢
    rw [along, called, hemitted]
    rfl

/-- A new recorder is added and subscribed by two acts. -/
theorem join_follows (s : Session) {r : Recorder} (new : r = .log .new ∨ r = .channel .new) :
    s.Follows (s.join r) [] := by
  obtain rfl | rfl := new
  · exact ⟨[.log, .subscribe s.audience.recorders.size], rfl, rfl⟩
  · exact ⟨[.channel, .subscribe s.audience.recorders.size], rfl, rfl⟩

/-- A look at a recorder is a use. -/
theorem consult_follows (s : Session) (recorder : Option Nat) (u : Recorder.Use) :
    s.Follows (s.consult recorder u).1 [] := by
  cases recorder with
  | none => exact ⟨[], rfl, rfl⟩
  | some number => exact ⟨[.use number u], rfl, rfl⟩

/-- Every command to the observers is made of such acts, and emits nothing. -/
theorem observersReply?_follows {s next : Session} {command : Command} {reply : Reply}
    (h : s.observersReply? command = some (next, reply)) : s.Follows next [] := by
  cases command with
  | subscribe =>
    cases h
    exact s.join_follows (.inl rfl)
  | snapshot log =>
    cases h
    exact s.consult_follows ..
  | outputs log =>
    cases h
    exact s.consult_follows ..
  | take log =>
    cases h
    exact s.consult_follows ..
  | openChannel =>
    cases h
    have dropped := s.consult_follows s.channel .drop
    exact dropped.trans (join_follows _ (.inr rfl))
  | receive =>
    cases h
    exact s.consult_follows ..
  | dropChannel =>
    cases h
    exact s.consult_follows ..
  | _ => nomatch h

/-- A command does to a session what some acts do, and its report tells what they emit. -/
theorem execute_follows (s : Session) (command : Command) :
    s.Follows (s.execute command).1 (s.execute command).2.events := by
  unfold execute
  split
  · next next reply found =>
    have followed : s.Follows next [] := observersReply?_follows found
    exact followed
  · exact follows_of_isCall (perform_isCall s.rig command)

/-- The session after commands. -/
def afterAll (s : Session) : List Command → Session
  | [] => s
  | command :: rest => (s.execute command).1.afterAll rest

/-- **Whatever commands a session executes**, there are acts that do the same with its rig and its audience,
and the reports tell what these emit. -/
theorem exists_acts (s : Session) (commands : List Command) :
    ∃ acts : List (Act Feed Watch), s.broadcast.after acts = (s.afterAll commands).broadcast ∧
      s.broadcast.emissions acts = (s.executeAll commands).flatMap Report.events := by
  induction commands generalizing s with
  | nil => exact ⟨[], rfl, rfl⟩
  | cons command rest ih => exact (s.execute_follows command).trans (ih _)

end Session
end DecimalMachine
