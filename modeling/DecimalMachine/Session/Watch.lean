/-
# Watching a run

A watch listens to a controlled run. It asks for a pause at events with given texts, and at the cycle
that completes a given number of cycles of this run. It keeps the journal of the run, and for each
change of the cycle count or the run state whether the run was going on when the event arrived.
-/

import DecimalMachine.Control.Listener

namespace DecimalMachine

/-- Where to pause, and what was heard so far. -/
structure Watch where
  /-- Texts of the events at which to pause. -/
  pauseOn : List String
  /-- Number of cycles after which to pause. -/
  limit : Nat
  /-- Cycles of this run so far. -/
  cycles : Nat
  journal : Array Emission
  seen : Array (Event × Bool)

namespace Watch

/-- A watch before the run. -/
def new (pauseOn : List String) (limit : Nat) : Watch := ⟨pauseOn, limit, 0, #[], #[]⟩

/-- Whether an event tells of a cycle. -/
def isCycle : Event → Bool
  | .cycleAdvanced _ => true
  | _ => false

/-- Whether an event tells of a cycle or of the run state. -/
def isProgress : Event → Bool
  | .cycleAdvanced _ | .runStateChanged _ => true
  | _ => false

/-- The watch after an emission; the truth value tells whether the run is going on. -/
def hear (w : Watch) (running : Bool) (emission : Emission) : Watch :=
  let w := { w with journal := w.journal.push emission }
  match emission with
  | .event e =>
    { w with
      cycles := if isCycle e then w.cycles + 1 else w.cycles
      seen := if isProgress e then w.seen.push (e, running) else w.seen }
  | _ => w

/-- Whether to pause at an event. -/
def pauses (w : Watch) (e : Event) : Bool :=
  w.pauseOn.contains e.text || (isCycle e && w.cycles + 1 == w.limit)

/-- A watch as a listener. -/
def listener : Listener Watch := ⟨hear, pauses⟩

end Watch
end DecimalMachine
