/-
# Listeners

A listener follows a controlled machine through its journals. It sees whether a run is going on when
an emission reaches it, and it may ask for a pause when an event reaches it. A request for a pause
ends the run before its next cycle; it does not keep later emissions of the same cycle from arriving.
-/

import DecimalMachine.Machine.Journal

namespace DecimalMachine

/-- Something that hears a run while it goes on, and may ask for a pause. Its state is of type `σ`. -/
structure Listener (σ : Type) where
  /-- The listener after an emission; the truth value tells whether a run is going on. -/
  hear : σ → Bool → Emission → σ
  /-- Whether the listener asks for a pause at an event. -/
  pauses : σ → Event → Bool

namespace Listener

variable {σ : Type}

/-- Hands a journal to a listener. Returns whether the run still goes on, and the listener. -/
def deliver (l : Listener σ) (running : Bool) (s : σ) : Journal → Bool × σ
  | [] => (running, s)
  | .event e :: rest => l.deliver (running && !l.pauses s e) (l.hear s running (.event e)) rest
  | emission :: rest => l.deliver running (l.hear s running emission) rest

/-- A listener that never asks for a pause. -/
def silent (hear : σ → Emission → σ) : Listener σ where
  hear s _ emission := hear s emission
  pauses _ _ := false

/-- Two journals are handed over one after the other. -/
theorem deliver_append (l : Listener σ) (running : Bool) (s : σ) (j k : Journal) :
    l.deliver running s (j ++ k) =
      l.deliver (l.deliver running s j).1 (l.deliver running s j).2 k := by
  induction j generalizing running s with
  | nil => rfl
  | cons emission rest ih =>
    cases emission <;> exact ih _ _

/-- No run starts because a listener heard something. -/
theorem deliver_false (l : Listener σ) (s : σ) (j : Journal) : (l.deliver false s j).1 = false := by
  induction j generalizing s with
  | nil => rfl
  | cons emission rest ih =>
    cases emission <;> exact ih _

end Listener
end DecimalMachine
