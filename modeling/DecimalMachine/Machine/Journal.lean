/-
# Journals

A journal lists, in order, all that becomes visible while a machine works: the events that go to
its observers, the log records, and the prompts with which an input source asks for a line. The
result of every operation comes with the journal of that operation.
-/

import DecimalMachine.Machine.Event
import DecimalMachine.Record

namespace DecimalMachine

/-- One thing that becomes visible. -/
inductive Emission where
  | event (e : Event)
  | record (r : Record)
  /-- An input source asked for a line. -/
  | prompt
  deriving DecidableEq, Repr

namespace Emission

/-- The event that an emission is, if it is one. -/
def event? : Emission → Option Event
  | event e => some e
  | _ => none

/-- The log record that an emission is, if it is one. -/
def record? : Emission → Option Record
  | record r => some r
  | _ => none

end Emission

/-- All that became visible, in order. -/
abbrev Journal := List Emission

namespace Journal

/-- The events of a journal, in order. -/
def events (j : Journal) : List Event := j.filterMap Emission.event?

/-- The log records of a journal, in order. -/
def records (j : Journal) : List Record := j.filterMap Emission.record?

/-- An empty journal has no events. -/
@[simp] theorem events_nil : events [] = [] := rfl

/-- An event comes before those of the rest. -/
@[simp] theorem events_cons_event (e : Event) (j : Journal) :
    events (.event e :: j) = e :: events j := rfl

/-- A log record is no event. -/
@[simp] theorem events_cons_record (r : Record) (j : Journal) :
    events (.record r :: j) = events j := rfl

/-- A journal of events only has just these. -/
@[simp] theorem events_map_event {α : Type} (f : α → Event) (list : List α) :
    events (list.map fun a => .event (f a)) = list.map f := by
  induction list with
  | nil => rfl
  | cons a rest ih => exact congrArg (f a :: ·) ih

/-- A journal of log records only has no events. -/
@[simp] theorem events_map_record {α : Type} (f : α → Record) (list : List α) :
    events (list.map fun a => .record (f a)) = [] := by
  induction list with
  | nil => rfl
  | cons a rest ih => exact ih

/-- Two journals have the events of the first and then those of the second. -/
@[simp] theorem events_append (j k : Journal) : events (j ++ k) = events j ++ events k :=
  List.filterMap_append

/-- Two journals have the log records of the first and then those of the second. -/
@[simp] theorem records_append (j k : Journal) : records (j ++ k) = records j ++ records k :=
  List.filterMap_append

end Journal

/-- What an operation leaves behind: the state after it, its journal and its result. -/
structure Turn (σ α : Type) where
  next : σ
  journal : Journal
  result : α

end DecimalMachine
