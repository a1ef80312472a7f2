/-
# Input sources

`IN` asks an input source for a number. The source may have none, which cancels the request;
whether the number is a word is not its business. A source may write to the log and prompt for a
line, but it does not speak to the observers of the machine.
-/

import DecimalMachine.Machine.Journal

namespace DecimalMachine

/-- What a request yields: a number, or none if it is cancelled. -/
structure Request (ι : Type) where
  value : Option Int
  source : ι
  journal : Journal

class InputSource (ι : Type) where
  request : ι → Request ι
  events_request : ∀ source, (request source).journal.events = []

/-- Queued numbers; an empty queue cancels. -/
instance : InputSource (List Int) where
  request
    | [] => ⟨none, [], []⟩
    | value :: rest => ⟨some value, rest, []⟩
  events_request source := by cases source <;> rfl

end DecimalMachine
