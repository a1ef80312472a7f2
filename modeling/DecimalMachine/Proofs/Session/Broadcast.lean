/-
# Broadcasts

A broadcast is a rig and its audience at work. What a call of the rig makes visible is pending at first and
reaches the audience event by event, so recorders can be used while a call is under way, and nothing is said
about who comes first.

| act | the rig | pending events | the audience |
| --- | --- | --- | --- |
| a call | does what is asked for | gain the events of the journal | |
| an emission | | lose the first one | hears it |
| a new recorder | | | has one recorder more |
| a subscription, a use | | | changes one recorder |

Whatever is counted of a number of acts is put together from what each act adds to it (`along`): the events
that were emitted, the stream of those that a recorder heard, and what was given to those who hold it.
-/

import DecimalMachine.Proofs.Control.Calls
import DecimalMachine.Proofs.Session.Audience
import DecimalMachine.Session.Rig

namespace DecimalMachine

variable {ι σ α : Type}

namespace Rig

/-- What can be asked of a rig. -/
inductive Call (ι σ : Type) where
  | load (p : Program)
  | reset
  | step (count : Nat)
  /-- Runs for at most `limit` steps. The listener of a controlled run starts in the state `s`. -/
  | run (l : Listener σ) (s : σ) (limit : Nat)
  | pause
  | setRate (rate : Float)
  /-- Changes the machine from outside, such as its input. -/
  | adjust (f : Machine ι → Machine ι)

/-- Asks the controller of a rig, if it has one. -/
def callController [InputSource ι] (r : Rig ι) (call : Controller.Call σ) : Turn (Rig ι) Unit :=
  match r with
  | bare m => ⟨bare m, [], ()⟩
  | controlled c => ⟨controlled (c.perform call).next, (c.perform call).journal, ()⟩

/-- Does what a call asks for, and records what becomes visible. -/
def perform [InputSource ι] (r : Rig ι) : Call ι σ → Turn (Rig ι) Unit
  | .load p => ⟨(r.load p).next, (r.load p).journal, ()⟩
  | .reset => ⟨r.reset.next, r.reset.journal, ()⟩
  | .step count => ⟨(r.steps count).next, (r.steps count).journal, ()⟩
  | .run l s limit =>
    match r with
    | bare m => ⟨bare (m.run limit).machine, (m.run limit).journal.toList, ()⟩
    | controlled c => (controlled c).callController (.run l s limit)
  | .pause => r.callController (.pause : Controller.Call σ)
  | .setRate rate => r.callController (.setRate rate : Controller.Call σ)
  | .adjust f => ⟨r.withMachine f, [], ()⟩

end Rig

/-- A rig, the events that it has still to emit, and the audience that hears them. -/
structure Broadcast (ι : Type) where
  rig : Rig ι
  /-- The events that are still to be emitted, in order. -/
  pending : List Event
  audience : Audience

namespace Broadcast

/-- A rig to which nobody listens. -/
def new (rig : Rig ι) : Broadcast ι := ⟨rig, [], .empty⟩

/-- What can happen: a call of the rig, the emission of an event, a new recorder, a subscription, or a use.
-/
inductive Act (ι σ : Type) where
  | call (call : Rig.Call ι σ)
  /-- Emits the first pending event. -/
  | emit
  /-- Makes a log. -/
  | log
  /-- Makes a channel. -/
  | channel
  | subscribe (number : Nat)
  | use (number : Nat) (u : Recorder.Use)

/-- The recorder that an act is about, if it is about one. -/
def Act.about : Act ι σ → Option Nat
  | subscribe number | use number _ => some number
  | _ => none

variable [InputSource ι]

/-- Performs an act; the result is the answer of the recorder that it is about. -/
def perform (b : Broadcast ι) : Act ι σ → Turn (Broadcast ι) Recorder.Answer
  | .call call =>
    let turn := b.rig.perform call
    ⟨{ b with rig := turn.next, pending := b.pending ++ turn.journal.events }, turn.journal, .nothing⟩
  | .emit =>
    match b.pending with
    | [] => ⟨b, [], .nothing⟩
    | e :: rest => ⟨{ b with pending := rest, audience := b.audience.emit e }, [], .nothing⟩
  | .log => ⟨{ b with audience := b.audience.add (.log .new) }, [], .nothing⟩
  | .channel => ⟨{ b with audience := b.audience.add (.channel .new) }, [], .nothing⟩
  | .subscribe number => ⟨{ b with audience := b.audience.subscribe number }, [], .nothing⟩
  | .use number u =>
    let used := b.audience.use number u
    ⟨{ b with audience := used.1 }, [], used.2⟩

/-- The broadcast after acts. -/
def after (b : Broadcast ι) : List (Act ι σ) → Broadcast ι
  | [] => b
  | act :: rest => (b.perform act).next.after rest

/-- All that acts add to something, where `f` is what one act adds to it. -/
def along (f : Broadcast ι → Act ι σ → List α) (b : Broadcast ι) : List (Act ι σ) → List α
  | [] => []
  | act :: rest => f b act ++ along f (b.perform act).next rest

/-- Acts can be done in two parts. -/
theorem after_append (b : Broadcast ι) (acts others : List (Act ι σ)) :
    b.after (acts ++ others) = (b.after acts).after others := by
  induction acts generalizing b with
  | nil => rfl
  | cons act rest ih => exact ih _

/-- What is found along acts is found in two parts. -/
theorem along_append (f : Broadcast ι → Act ι σ → List α) (b : Broadcast ι)
    (acts others : List (Act ι σ)) :
    along f b (acts ++ others) = along f b acts ++ along f (b.after acts) others := by
  induction acts generalizing b with
  | nil => rfl
  | cons act rest ih =>
    rw [List.cons_append, along, ih, along, after, List.append_assoc]

/-! ### What one act adds -/

/-- The event that an act emits, if it does. -/
def emitted (b : Broadcast ι) : Act ι σ → List Event
  | .emit => b.pending.take 1
  | _ => []

/-- What a recorder hears during an act: an event once for each time that it is subscribed. -/
def heard (number : Nat) (b : Broadcast ι) (act : Act ι σ) : List Event :=
  (b.emitted act).flatMap (List.replicate (b.audience.subscribed.count number))

/-- The answer of a recorder to an act that is about it. -/
def told (number : Nat) (b : Broadcast ι) (act : Act ι σ) : List Recorder.Answer :=
  if act.about = some number then [(b.perform act).result] else []

/-- The events that a recorder gives during an act. -/
def gave (number : Nat) (b : Broadcast ι) (act : Act ι σ) : List Event :=
  (b.told number act).flatMap Recorder.Answer.taken

/-- All that becomes visible of the calls among acts. -/
def journal (b : Broadcast ι) : List (Act ι σ) → Journal :=
  along (fun b act => (b.perform act).journal) b

/-- The events that acts emit. -/
def emissions (b : Broadcast ι) : List (Act ι σ) → List Event := along emitted b

/-- The answers that a recorder gives. -/
def answers (b : Broadcast ι) (number : Nat) : List (Act ι σ) → List Recorder.Answer :=
  along (told number) b

/-- All that was taken of a log, or received from a channel. -/
def given (b : Broadcast ι) (number : Nat) : List (Act ι σ) → List Event := along (gave number) b

end Broadcast
end DecimalMachine
