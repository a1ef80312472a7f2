/-
# Audiences

The audience of a machine is made of recorders, which are logs and channels. A recorder that was made is not
yet subscribed, and those who hold it need not be one: it hears an event once for each time that it was
subscribed. Subscriptions are kept in order and never end, not even when a receiver is dropped.

| use | of a log | of a channel |
| --- | --- | --- |
| take | gives all that is held | |
| snapshot | shows all that is held | |
| outputs | shows the words among it | |
| receive | | gives the event that waits longest |
| drain | | gives all that waits |
| drop | | loses all that waits, and all that comes |
-/

import DecimalMachine.Observer

namespace DecimalMachine

/-- A log or a channel to which events can be told. -/
inductive Recorder where
  | log (log : EventLog)
  | channel (channel : Channel)

namespace Recorder

/-- The recorder after an event. -/
def hear (e : Event) : Recorder → Recorder
  | log l => log (l.record [e])
  | channel c => channel (c.send [e])

/-- What can be done with a recorder that one holds. -/
inductive Use where
  | take
  | snapshot
  | outputs
  | receive
  | drain
  | drop
  deriving DecidableEq, Repr

/-- What comes of a use of a recorder. -/
inductive Answer where
  | nothing
  /-- Events that are not held any more. -/
  | given (events : List Event)
  /-- Events that are still held. -/
  | shown (events : List Event)
  | words (values : List Int)
  deriving DecidableEq, Repr

namespace Answer

/-- The events that an answer tells. -/
def events : Answer → List Event
  | given events | shown events => events
  | _ => []

/-- The events that an answer takes away. -/
def taken : Answer → List Event
  | given events => events
  | _ => []

/-- The words that an answer shows. -/
def values : Answer → List Int
  | words values => values
  | _ => []

end Answer

/-- Uses a recorder. Nothing comes of a use that its kind does not have. -/
def use : Recorder → Use → Recorder × Answer
  | log l, .take => (log l.take.2, .given l.take.1)
  | log l, .snapshot => (log l, .shown l.snapshot)
  | log l, .outputs => (log l, .words l.outputs)
  | channel c, .receive => (channel c.next.2, .given c.next.1.toList)
  | channel c, .drain => (channel c.receive.2, c.receive.1.elim .nothing .given)
  | channel _, .drop => (channel .closed, .nothing)
  | recorder, _ => (recorder, .nothing)

end Recorder

/-- The recorders that were made, and which of them are subscribed, in order. -/
structure Audience where
  /-- All recorders that were made, by number. -/
  recorders : Array Recorder
  /-- The numbers that were subscribed, in order. -/
  subscribed : List Nat

namespace Audience

/-- No recorders, and no subscriptions. -/
def empty : Audience := ⟨#[], []⟩

/-- Adds a recorder, which gets the next number. -/
def add (a : Audience) (r : Recorder) : Audience := { a with recorders := a.recorders.push r }

/-- Subscribes a recorder once more, if there is one of this number. -/
def subscribe (a : Audience) (number : Nat) : Audience :=
  if number < a.recorders.size then { a with subscribed := a.subscribed ++ [number] } else a

/-- Tells one recorder of an event. -/
def notify (e : Event) (a : Audience) (number : Nat) : Audience :=
  { a with recorders := a.recorders.modify number (·.hear e) }

/-- Tells all who are subscribed of an event, in order. -/
def emit (a : Audience) (e : Event) : Audience := a.subscribed.foldl (notify e) a

/-- The audience after events in order. -/
def emitAll (a : Audience) (events : List Event) : Audience := events.foldl emit a

/-- Uses a recorder, if there is one of this number. -/
def use (a : Audience) (number : Nat) (u : Recorder.Use) : Audience × Recorder.Answer :=
  match a.recorders[number]? with
  | none => (a, .nothing)
  | some r => ({ a with recorders := a.recorders.setIfInBounds number (r.use u).1 }, (r.use u).2)

end Audience
end DecimalMachine
