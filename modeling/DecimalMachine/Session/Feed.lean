/-
# Feeds

A feed is the input of a machine in a session: a queue of numbers that the session fills, and whether
the machine is connected to it. A machine that is not connected has no input.
-/

import DecimalMachine.Machine.Input

namespace DecimalMachine

/-- A queue of numbers, and whether the machine is connected to it. -/
structure Feed where
  connected : Bool
  queue : List Int
  deriving DecidableEq, Repr

namespace Feed

/-- No queue, as a session starts without input. -/
def none : Feed := ⟨false, []⟩

/-- A queue that the machine is connected to. -/
def ofList (values : List Int) : Feed := ⟨true, values⟩

/-- Appends numbers to the queue, whether the machine is connected to it or not. -/
def push (feed : Feed) (values : List Int) : Feed := { feed with queue := feed.queue ++ values }

/-- The queue without the machine connected to it. -/
def disconnect (feed : Feed) : Feed := { feed with connected := false }

/-- Whether the queue is empty. -/
def isEmpty (feed : Feed) : Bool := feed.queue.isEmpty

instance : InputSource Feed where
  request feed :=
    if feed.connected then
      let request := InputSource.request feed.queue
      ⟨request.value, ofList request.source, request.journal⟩
    else ⟨.none, feed, []⟩
  events_request feed := by
    dsimp only
    split
    · exact InputSource.events_request feed.queue
    · rfl

end Feed
end DecimalMachine
