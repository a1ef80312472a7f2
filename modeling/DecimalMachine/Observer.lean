/-
# Observers

An event log records every event since it was subscribed; taking the events empties it. A channel
holds the events that wait to be received; once its receiver is dropped, nothing waits any more.
Observers only listen, so none of them changes what the machine does or what the others get.
-/

import DecimalMachine.Machine.Event

namespace DecimalMachine

/-- A log of events, and what it holds. -/
structure EventLog where
  recorded : Array Event

namespace EventLog

/-- A log at the moment it is subscribed. -/
def new : EventLog := ⟨#[]⟩

/-- The log after events in order. -/
def record (log : EventLog) (events : List Event) : EventLog := ⟨log.recorded ++ events⟩

/-- The events that are recorded, in order. -/
def snapshot (log : EventLog) : List Event := log.recorded.toList

/-- The words that the recorded events put out. -/
def outputs (log : EventLog) : List Int := log.snapshot.filterMap Event.output?

/-- The recorded events, and the log without them. -/
def take (log : EventLog) : List Event × EventLog := (log.snapshot, new)

/-- A log shows what it held and then the events that came. -/
theorem snapshot_record (log : EventLog) (events : List Event) :
    (log.record events).snapshot = log.snapshot ++ events := by
  simp [record, snapshot]

end EventLog

/-- A channel, or none of whose receiver is left. -/
structure Channel where
  waiting : Option (Array Event)

namespace Channel

/-- A channel without a receiver. -/
def closed : Channel := ⟨none⟩

/-- A channel at the moment it is subscribed. -/
def new : Channel := ⟨some #[]⟩

/-- The channel after events in order; a closed one keeps none. -/
def send (channel : Channel) (events : List Event) : Channel :=
  ⟨channel.waiting.map (· ++ events)⟩

/-- The events that wait, and the channel without them; none if there is no receiver. -/
def receive (channel : Channel) : Option (List Event) × Channel :=
  match channel.waiting with
  | some events => (some events.toList, new)
  | none => (none, closed)

/-- The event that waits longest, if one does, and the channel without it. -/
def next (channel : Channel) : Option Event × Channel :=
  match channel.waiting with
  | some events => (events[0]?, ⟨some (events.extract 1)⟩)
  | none => (none, closed)

end Channel
end DecimalMachine
