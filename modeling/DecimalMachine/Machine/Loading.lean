/-
# Loading memory

Loading zeroes memory and writes the words of a program in order. The first entry that cannot be
written ends it; the words before it stay written.
-/

import DecimalMachine.Machine.Journal
import DecimalMachine.Program
import DecimalMachine.Text.Numeral

namespace DecimalMachine
namespace Memory

/-- The log record of a write. -/
def writeRecord (address : Nat) (value : Int) : Record :=
  ⟨.trace, "Mem: writing " ++ toString value ++ " to " ++ Text.addressText address⟩

/-- A write together with its log record. -/
def store (m : Memory) (address : Nat) (value : Int) : Turn Memory (Except Violation Unit) :=
  match writeViolation? address value with
  | some violation => ⟨m, [], .error violation⟩
  | none => ⟨m.set address value, [.record (writeRecord address value)], .ok ()⟩

end Memory

namespace Program

/-- The first violation that writing the entries into memory would be, if any. -/
def violation? (p : Program) : Option Violation := p.entries.findSome? Entry.violation?

/-- The entries before the first that cannot be written. -/
def writable (p : Program) : List Entry := p.entries.takeWhile fun e => e.violation?.isNone

/-- The writes of a load all succeed exactly for a program that fits. -/
theorem violation?_eq_none_iff {p : Program} : p.violation? = none ↔ p.Loadable := by
  unfold violation? Loadable
  rw [List.findSome?_eq_none_iff]
  exact forall₂_congr fun _ _ => Entry.violation?_eq_none_iff

/-- Of a program that fits every entry is written. -/
theorem writable_of_loadable {p : Program} (h : p.Loadable) : p.writable = p.entries := by
  obtain ⟨entries⟩ := p
  unfold writable
  unfold Loadable at h
  dsimp only at h ⊢
  induction entries with
  | nil => rfl
  | cons e rest ih =>
    rw [List.takeWhile_cons_of_pos (by rw [Entry.violation?_eq_none_iff.2 (h e List.mem_cons_self)]; rfl),
      ih fun d hd => h d (List.mem_cons_of_mem e hd)]

end Program

namespace Memory

/-- Memory as a program leaves it; nothing of an earlier program stays. -/
def load (p : Program) : Turn Memory (Except Violation Unit) where
  next := Program.writeAll .zero p.writable
  journal := p.writable.map fun e => .record (writeRecord e.address e.word)
  result :=
    match p.violation? with
    | some violation => .error violation
    | none => .ok ()

end Memory
end DecimalMachine
