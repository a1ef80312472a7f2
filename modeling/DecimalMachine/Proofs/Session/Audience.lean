/-
# Accounts of recorders

A recorder holds the events that it heard and did not give away. A channel whose receiver was dropped holds
none any more, and neither loses nor gives one.

| what happens to a recorder | what it holds then |
| --- | --- |
| it hears an event | what it held, and the event behind it |
| it gives events | what it held, without these at its beginning |
| its receiver is dropped | nothing, for good |

So what was given and what is held make up what was heard (`Balanced`), and this outlives both what a recorder
hears and how it is used. An event reaches a recorder once for each time that it is subscribed, whoever else
is subscribed in between (`recorders_emit`). So every recorder of an audience keeps its account (`Account`),
from the time when it was not yet made on, and audiences that differ in one recorder differ in no other one
later (`SameBut`).
-/

import DecimalMachine.Audience

namespace DecimalMachine
namespace Recorder

/-- The events that a recorder holds, unless its receiver was dropped. -/
def held : Recorder → Option (List Event)
  | log l => some l.snapshot
  | channel c => c.waiting.map Array.toList

/-- The recorder after events. -/
def hearAll (r : Recorder) (events : List Event) : Recorder := events.foldl (fun r e => r.hear e) r

/-- The account of a recorder that gave `given` of what it `heard`. -/
def Balanced (r : Recorder) (given heard : List Event) : Prop :=
  match r.held with
  | some kept => given ++ kept = heard
  | none => given <+: heard

/-- A recorder that was not dropped holds one event more. -/
theorem held_hear (r : Recorder) (e : Event) : (r.hear e).held = r.held.map (· ++ [e]) := by
  cases r with
  | log l => exact congrArg some (l.snapshot_record [e])
  | channel c =>
    obtain ⟨waiting⟩ := c
    cases waiting with
    | none => rfl
    | some events => exact congrArg some Array.toList_appendList

/-- A recorder that was not dropped holds all events behind those that it held. -/
theorem held_hearAll (r : Recorder) (events : List Event) :
    (r.hearAll events).held = r.held.map (· ++ events) := by
  induction events generalizing r with
  | nil =>
    cases held : r.held with
    | none => exact held
    | some kept => exact held.trans (congrArg some (List.append_nil kept).symm)
  | cons e rest ih =>
    have next : (r.hearAll (e :: rest)).held = ((r.hear e).hearAll rest).held := rfl
    rw [next, ih, held_hear, Option.map_map]
    congr 1
    funext kept
    exact List.append_cons kept e rest |>.symm

/-- **A use gives the first events of those that are held**, and keeps the others; or nothing is held after
it, and it gives none. -/
theorem held_use (r : Recorder) (u : Use) :
    (∃ kept, (r.use u).1.held = some kept ∧ r.held = some ((r.use u).2.taken ++ kept)) ∨
      (r.use u).1.held = none ∧ (r.use u).2.taken = [] := by
  cases r with
  | log l =>
    refine .inl ?_
    cases u with
    | take => exact ⟨[], rfl, congrArg some (List.append_nil _).symm⟩
    | _ => exact ⟨l.snapshot, rfl, rfl⟩
  | channel c =>
    obtain ⟨waiting⟩ := c
    cases waiting with
    | none => cases u <;> exact .inr ⟨rfl, rfl⟩
    | some events =>
      obtain ⟨events⟩ := events
      cases u with
      | receive =>
        cases events with
        | nil => exact .inl ⟨[], rfl, rfl⟩
        | cons e rest =>
          have others : ((e :: rest).toArray.extract 1).toList = rest := by simp
          exact .inl ⟨rest, congrArg some others, rfl⟩
      | drain => exact .inl ⟨[], rfl, congrArg some (List.append_nil events).symm⟩
      | drop => exact .inr ⟨rfl, rfl⟩
      | _ => exact .inl ⟨events, rfl, rfl⟩

/-- Only a receiver that is dropped stops holding events. -/
theorem isSome_held_use {r : Recorder} (living : r.held.isSome = true) {u : Use} (h : u ≠ .drop) :
    (r.use u).1.held.isSome = true := by
  cases r with
  | log l => cases u <;> rfl
  | channel c =>
    obtain ⟨waiting⟩ := c
    cases waiting with
    | none => nomatch living
    | some events =>
      cases u with
      | drop => exact absurd rfl h
      | _ => rfl

/-! ### Accounts -/

variable {r : Recorder} {given heard kept : List Event}

/-- For a recorder that holds something, what it gave and what it holds is what it heard. -/
theorem balanced_of_held (h : r.held = some kept) : r.Balanced given heard ↔ given ++ kept = heard := by
  rw [Balanced, h]

/-- One that was dropped gave the first part of what it heard. -/
theorem balanced_of_dropped (h : r.held = none) : r.Balanced given heard ↔ given <+: heard := by
  rw [Balanced, h]

/-- Nothing is given that was not heard, or in another order. -/
theorem Balanced.given_prefix (h : r.Balanced given heard) : given <+: heard := by
  cases held : r.held with
  | none => exact (balanced_of_dropped held).1 h
  | some kept => exact ⟨kept, (balanced_of_held held).1 h⟩

/-- Events are heard and held. -/
theorem Balanced.hearAll (h : r.Balanced given heard) (events : List Event) :
    (r.hearAll events).Balanced given (heard ++ events) := by
  have after := held_hearAll r events
  cases held : r.held with
  | none =>
    rw [held] at after
    exact (balanced_of_dropped after).2 (h.given_prefix.trans (List.prefix_append heard events))
  | some kept =>
    rw [held] at after
    have before := (balanced_of_held held).1 h
    refine (balanced_of_held after).2 ?_
    rw [← List.append_assoc, before]

/-- **A use gives what it takes away**, so that the account stays balanced. -/
theorem Balanced.use (h : r.Balanced given heard) (u : Use) :
    (r.use u).1.Balanced (given ++ (r.use u).2.taken) heard := by
  rcases held_use r u with ⟨kept, after, before⟩ | ⟨after, nothing⟩
  · refine (balanced_of_held after).2 ?_
    rw [List.append_assoc]
    exact (balanced_of_held before).1 h
  · rw [nothing, List.append_nil]
    exact (balanced_of_dropped after).2 h.given_prefix

end Recorder

/-! ### Recorders of an audience -/

namespace Audience

variable {a : Audience} {number : Nat}

/-- Events that are told to recorders one after the other: each recorder hears an event as often as it is
among them. -/
theorem foldl_notify (e : Event) (numbers : List Nat) :
    (numbers.foldl (notify e) a).recorders[number]? =
        a.recorders[number]?.map (·.hearAll (List.replicate (numbers.count number) e)) ∧
      (numbers.foldl (notify e) a).recorders.size = a.recorders.size ∧
      (numbers.foldl (notify e) a).subscribed = a.subscribed := by
  induction numbers generalizing a with
  | nil => exact ⟨Option.map_id_apply.symm, rfl, rfl⟩
  | cons first rest ih =>
    have next := @ih (notify e a first)
    have size : (notify e a first).recorders.size = a.recorders.size := Array.size_modify
    refine ⟨next.1.trans ?_, next.2.1.trans size, next.2.2⟩
    have told : (notify e a first).recorders[number]? = _ := Array.getElem?_modify
    rw [told]
    by_cases same : first = number
    · subst same
      rw [if_pos rfl, Option.map_map, List.count_cons_self, List.replicate_succ]
      rfl
    · rw [if_neg same, List.count_cons_of_ne same]

/-- **An event is heard once for each subscription.** -/
theorem recorders_emit (a : Audience) (e : Event) (number : Nat) :
    (a.emit e).recorders[number]? =
      a.recorders[number]?.map (·.hearAll (List.replicate (a.subscribed.count number) e)) :=
  (foldl_notify e a.subscribed).1

/-- A log that was subscribed twice hears an event twice. -/
example :
    ((((empty.add (.log .new)).subscribe 0).subscribe 0).emit (.output 7)).recorders[0]?.bind
      Recorder.held = some [.output 7, .output 7] := by decide

/-- An event adds no recorder. -/
theorem size_emit (a : Audience) (e : Event) : (a.emit e).recorders.size = a.recorders.size :=
  (@foldl_notify a 0 e a.subscribed).2.1

/-- An event adds no subscription. -/
theorem subscribed_emit (a : Audience) (e : Event) : (a.emit e).subscribed = a.subscribed :=
  (@foldl_notify a 0 e a.subscribed).2.2

/-- A use concerns one recorder. -/
theorem recorders_use (a : Audience) (used : Nat) (u : Recorder.Use) (number : Nat) :
    (a.use used u).1.recorders[number]? =
      if used = number then a.recorders[number]?.map fun r => (r.use u).1
      else a.recorders[number]? := by
  unfold use
  split
  · next none =>
    split
    · next same => rw [← same, none]; rfl
    · rfl
  · next r found =>
    rw [Array.getElem?_setIfInBounds]
    split
    · next same =>
      rw [← same, found, if_pos (Array.getElem?_eq_some_iff.1 found).1]
      rfl
    · rfl

/-- The answer to a use is that of the recorder, if there is one of this number. -/
theorem answer_use (a : Audience) (used : Nat) (u : Recorder.Use) :
    (a.use used u).2 = a.recorders[used]?.elim .nothing fun r => (r.use u).2 := by
  unfold use
  split
  · next none => rw [none]; rfl
  · next r found => rw [found]; rfl

/-- A use adds no recorder. -/
theorem size_use (a : Audience) (used : Nat) (u : Recorder.Use) :
    (a.use used u).1.recorders.size = a.recorders.size := by
  unfold use
  split
  · rfl
  · exact Array.size_setIfInBounds

/-- A use ends no subscription, not even that of a recorder that is dropped. -/
theorem subscribed_use (a : Audience) (used : Nat) (u : Recorder.Use) :
    (a.use used u).1.subscribed = a.subscribed := by
  unfold use
  split <;> rfl

/-- A subscription changes no recorder. -/
theorem recorders_subscribe (a : Audience) (number : Nat) :
    (a.subscribe number).recorders = a.recorders := by
  unfold subscribe
  split <;> rfl

/-- The account of the recorder of this number, which need not be made yet. -/
structure Account (a : Audience) (number : Nat) (given heard : List Event) : Prop where
  /-- Only recorders that were made are subscribed. -/
  made : ∀ subscriber ∈ a.subscribed, subscriber < a.recorders.size
  absent : a.recorders.size ≤ number → given = [] ∧ heard = []
  balanced : ∀ r, a.recorders[number]? = some r → r.Balanced given heard

/-- At first nothing was given and nothing heard. -/
theorem Account.empty (number : Nat) : Audience.empty.Account number [] [] where
  made := nofun
  absent := fun _ => ⟨rfl, rfl⟩
  balanced := nofun

variable {given heard : List Event}

/-- A recorder that is made has an account without any event. -/
theorem Account.add (h : a.Account number given heard) {r : Recorder} (new : r.held = some []) :
    (a.add r).Account number given heard := by
  have size : (a.add r).recorders.size = a.recorders.size + 1 := Array.size_push r
  refine ⟨?_, ?_, ?_⟩
  · intro subscriber mem
    exact size ▸ Nat.lt_succ_of_lt (h.made subscriber mem)
  · intro absent
    rw [size] at absent
    exact h.absent (Nat.le_of_succ_le absent)
  · intro found hfound
    have pushed : (a.add r).recorders[number]? = _ := Array.getElem?_push
    rw [pushed] at hfound
    split at hfound
    · next last =>
      obtain ⟨rfl, rfl⟩ := h.absent (Nat.le_of_eq last.symm)
      obtain rfl := Option.some.inj hfound
      exact (Recorder.balanced_of_held new).2 rfl
    · exact h.balanced found hfound

/-- A subscription is not heard. -/
theorem Account.subscribe (h : a.Account number given heard) (subscriber : Nat) :
    (a.subscribe subscriber).Account number given heard := by
  have same := a.recorders_subscribe subscriber
  refine ⟨?_, ?_, ?_⟩
  · rw [same]
    intro other mem
    unfold Audience.subscribe at mem
    split at mem
    · next there =>
      rcases List.mem_append.1 mem with mem | mem
      · exact h.made other mem
      · rwa [List.mem_singleton.1 mem]
    · exact h.made other mem
  · rw [same]
    exact h.absent
  · rw [same]
    exact h.balanced

/-- A use of the recorder adds to what it gave, and a use of another one does not. -/
theorem Account.use (h : a.Account number given heard) (used : Nat) (u : Recorder.Use) :
    (a.use used u).1.Account number
      (given ++ if used = number then (a.use used u).2.taken else []) heard := by
  refine ⟨?_, ?_, ?_⟩
  · rw [size_use, subscribed_use]
    exact h.made
  · rw [size_use]
    intro absent
    obtain ⟨rfl, rfl⟩ := h.absent absent
    refine ⟨?_, rfl⟩
    split
    · next same =>
      rw [answer_use, same, Array.getElem?_eq_none absent]
      rfl
    · rfl
  · intro r found
    rw [recorders_use] at found
    by_cases same : used = number
    · rw [if_pos same] at found
      obtain ⟨before, hbefore, rfl⟩ := Option.map_eq_some_iff.1 found
      rw [if_pos same, answer_use, same, hbefore]
      exact (h.balanced before hbefore).use u
    · rw [if_neg same] at found
      rw [if_neg same, List.append_nil]
      exact h.balanced r found

/-- **An event is heard once for each subscription** of the recorder. -/
theorem Account.emit (h : a.Account number given heard) (e : Event) :
    (a.emit e).Account number given
      (heard ++ List.replicate (a.subscribed.count number) e) := by
  refine ⟨?_, ?_, ?_⟩
  · rw [size_emit, subscribed_emit]
    exact h.made
  · rw [size_emit]
    intro absent
    obtain ⟨rfl, rfl⟩ := h.absent absent
    -- Nobody who is subscribed has this number yet.
    have unheard : number ∉ a.subscribed := fun mem =>
      absurd (h.made number mem) (Nat.not_lt.2 absent)
    rw [List.count_eq_zero.2 unheard]
    exact ⟨rfl, rfl⟩
  · intro r found
    rw [recorders_emit] at found
    obtain ⟨before, hbefore, rfl⟩ := Option.map_eq_some_iff.1 found
    exact (h.balanced before hbefore).hearAll _

/-! ### Receivers that live -/

/-- The receiver of this number, if there is one, was not dropped. -/
def Living (a : Audience) (number : Nat) : Prop :=
  ∀ r, a.recorders[number]? = some r → r.held.isSome = true

/-- Another recorder does not end the life of one. -/
theorem Living.add (h : a.Living number) {r : Recorder} (new : r.held.isSome = true) :
    (a.add r).Living number := by
  intro found hfound
  have pushed : (a.add r).recorders[number]? = _ := Array.getElem?_push
  rw [pushed] at hfound
  split at hfound
  · rwa [← Option.some.inj hfound]
  · exact h found hfound

/-- An event ends no life. -/
theorem Living.emit (h : a.Living number) (e : Event) : (a.emit e).Living number := by
  intro r found
  rw [recorders_emit] at found
  obtain ⟨before, hbefore, rfl⟩ := Option.map_eq_some_iff.1 found
  rw [Recorder.held_hearAll, Option.isSome_map]
  exact h before hbefore

/-- Only a drop of the recorder itself does. -/
theorem Living.use (h : a.Living number) {used : Nat} {u : Recorder.Use}
    (kept : used ≠ number ∨ u ≠ .drop) : (a.use used u).1.Living number := by
  intro r found
  rw [recorders_use] at found
  split at found
  · next same =>
    obtain ⟨before, hbefore, rfl⟩ := Option.map_eq_some_iff.1 found
    exact Recorder.isSome_held_use (h before hbefore) (kept.resolve_left (not_not_intro same))
  · exact h r found

/-! ### Audiences that differ in one recorder -/

/-- Two audiences that differ in one recorder, and in how it is subscribed, at most. -/
structure SameBut (number : Nat) (a other : Audience) : Prop where
  size : other.recorders.size = a.recorders.size
  recorders : ∀ third, third ≠ number → other.recorders[third]? = a.recorders[third]?
  subscribed : ∀ third, third ≠ number → other.subscribed.count third = a.subscribed.count third

variable {other : Audience}

/-- An audience is the same as itself but for any recorder. -/
theorem SameBut.refl (number : Nat) (a : Audience) : SameBut number a a :=
  ⟨rfl, fun _ _ => rfl, fun _ _ => rfl⟩

/-- Two audiences that differ in one recorder still do after another one is added. -/
theorem SameBut.add (h : SameBut number a other) (r : Recorder) :
    SameBut number (a.add r) (other.add r) where
  size := by
    have size (a : Audience) : (a.add r).recorders.size = a.recorders.size + 1 := Array.size_push r
    rw [size, size, h.size]
  recorders := by
    intro third different
    have pushed (a : Audience) : (a.add r).recorders[third]? = _ := Array.getElem?_push
    rw [pushed, pushed, h.size, h.recorders third different]
  subscribed := h.subscribed

/-- They still do after an event. -/
theorem SameBut.emit (h : SameBut number a other) (e : Event) :
    SameBut number (a.emit e) (other.emit e) where
  size := by rw [size_emit, size_emit, h.size]
  recorders := by
    intro third different
    rw [recorders_emit, recorders_emit, h.recorders third different, h.subscribed third different]
  subscribed := by
    rw [subscribed_emit, subscribed_emit]
    exact h.subscribed

/-- They still do after a subscription. -/
theorem SameBut.subscribe (h : SameBut number a other) (subscriber : Nat) :
    SameBut number (a.subscribe subscriber) (other.subscribe subscriber) where
  size := by rw [recorders_subscribe, recorders_subscribe, h.size]
  recorders := by
    rw [recorders_subscribe, recorders_subscribe]
    exact h.recorders
  subscribed := by
    intro third different
    have same := h.subscribed third different
    unfold Audience.subscribe
    rw [h.size]
    split
    · rw [List.count_append, List.count_append, same]
    · exact same

/-- They still do after a use of any recorder. -/
theorem SameBut.use (h : SameBut number a other) (used : Nat) (u : Recorder.Use) :
    SameBut number (a.use used u).1 (other.use used u).1 where
  size := by rw [size_use, size_use, h.size]
  recorders := by
    intro third different
    rw [recorders_use, recorders_use, h.recorders third different]
  subscribed := by
    rw [subscribed_use, subscribed_use]
    exact h.subscribed

end Audience
end DecimalMachine
