/-
# Recorded runs

A run hands its journals to a listener and keeps none. A listener that records what it hears follows
the run all the same: it pauses where the listener would have paused, so the run is the one that the
listener would have heard, and the record is the journal of the run.
-/

import DecimalMachine.Control.Run

namespace DecimalMachine

variable {ι σ : Type}

namespace Listener

/-- The listener together with a record of what it heard. -/
def recording (l : Listener σ) : Listener (σ × Journal) where
  hear s running emission := (l.hear s.1 running emission, s.2 ++ [emission])
  pauses s e := l.pauses s.1 e

/-- A listener that records hears what the listener hears, and adds it to the record. -/
theorem deliver_recording (l : Listener σ) (running : Bool) (s : σ) (j k : Journal) :
    l.recording.deliver running (s, j) k =
      ((l.deliver running s k).1, (l.deliver running s k).2, j ++ k) := by
  induction k generalizing running s j with
  | nil => rw [List.append_nil]; rfl
  | cons emission rest ih =>
    have happend : j ++ emission :: rest = (j ++ [emission]) ++ rest := by
      rw [List.append_assoc, List.singleton_append]
    rw [happend]
    cases emission <;> exact ih _ _ _

end Listener

namespace Controller

/-- A recorded run without its record. -/
def Run.heard (r : Run ι (σ × Journal)) : Run ι σ := ⟨r.controller, r.listener.1, r.ending⟩

variable (l : Listener σ) (s : σ) (j : Journal)

/-- A listener that records hears a part of a run as the listener does, and adds its journal to the record.
-/
theorem announce_recording {α : Type} (turn : Turn (Controller ι) α) :
    announce l.recording (s, j) turn =
      ((announce l s turn).1, (announce l s turn).2, j ++ turn.journal) := by
  unfold announce
  rw [Listener.deliver_recording]

/-- The record of the end of a run does not change it. -/
theorem conclude_recording (c : Controller ι) :
    (conclude l.recording c (s, j)).heard = conclude l c s := by
  unfold conclude
  rw [announce_recording]
  rfl

variable [InputSource ι]

/-- The record of a run that was started does not change it. -/
theorem runFrom_recording (limit : Nat) (c : Controller ι) :
    (runFrom l.recording limit c (s, j)).heard = runFrom l limit c s := by
  induction limit generalizing c s j with
  | zero =>
    unfold runFrom
    split
    · rfl
    · exact conclude_recording l s j c
  | succ limit ih =>
    unfold runFrom
    split
    · dsimp only
      rw [announce_recording]
      cases c.cycle.result with
      | error violation => rfl
      | ok goesOn =>
        cases goesOn with
        | false => exact conclude_recording l _ _ _
        | true =>
          dsimp only
          split
          · exact ih _ _ _
          · rfl
    · exact conclude_recording l s j c

/-- **Recording changes nothing** about a run. -/
theorem run_recording (limit : Nat) (c : Controller ι) :
    (run l.recording limit c (s, j)).heard = run l limit c s := by
  unfold run
  split
  · rw [announce_recording]; rfl
  · split
    · rfl
    · rw [announce_recording]
      dsimp only
      split
      · exact runFrom_recording l _ _ limit _
      · rfl

end Controller
end DecimalMachine
