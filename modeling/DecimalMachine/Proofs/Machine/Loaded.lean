/-
# Loaded machines

A program that fits leaves, whatever was on the machine before, the same state, program and stop;
only the input source stays. The state is in range, because every entry of the program is a word
with a cell.
-/

import DecimalMachine.Proofs.Machine.Steps

namespace DecimalMachine

namespace Program

/-- Entries with words write words. -/
theorem inWordRange_writeAll {entries : List Entry} (h : ∀ e ∈ entries, e.Loadable) {m : Memory}
    (hm : ∀ address, InWordRange (m.get address)) (address : Nat) :
    InWordRange ((writeAll m entries).get address) := by
  induction entries generalizing m with
  | nil => exact hm address
  | cons e rest ih =>
    obtain ⟨he, hrest⟩ := List.forall_mem_cons.1 h
    refine ih hrest fun other => ?_
    rw [Memory.get_set m he.1]
    split
    · exact he.2
    · exact hm other

/-- **The last entry at an address counts.** A cell that no entry names keeps its word. -/
theorem get_writeAll {entries : List Entry} (h : ∀ e ∈ entries, e.Loadable) (m : Memory)
    (address : Nat) :
    (writeAll m entries).get address =
      (entryAt? ⟨entries⟩ address).elim (m.get address) Entry.word := by
  induction entries generalizing m with
  | nil => rfl
  | cons e rest ih =>
    obtain ⟨he, hrest⟩ := List.forall_mem_cons.1 h
    have hfirst : entryAt? ⟨e :: rest⟩ address =
        (entryAt? ⟨rest⟩ address).or (if e.address == address then some e else none) := by
      rw [entryAt?, List.reverse_cons, List.find?_append, List.find?_singleton]
      rfl
    have hwritten : (writeAll m (e :: rest)).get address =
        (entryAt? ⟨rest⟩ address).elim ((m.set e.address e.word).get address) Entry.word :=
      ih hrest (m.set e.address e.word)
    rw [hwritten, hfirst, Memory.get_set m he.1]
    cases entryAt? ⟨rest⟩ address with
    | some later => rfl
    | none =>
      by_cases same : e.address = address
      · simp [same]
      · simp [same, Ne.symm same]

/-- A program without extent has no entries. -/
theorem entries_eq_nil_of_extent {p : Program} (h : p.extent = 0) : p.entries = [] := by
  cases hp : p.entries with
  | nil => rfl
  | cons e rest =>
    have := address_lt_extent (p := p) (e := e) (hp ▸ List.mem_cons_self)
    omega

/-- The state in which a load leaves a machine. -/
def loadedState (p : Program) : State := { State.zero with memory := writeAll .zero p.entries }

/-- A state that was loaded is in range if the program fits. -/
theorem Loadable.inRange {p : Program} (h : p.Loadable) : p.loadedState.InRange where
  registers := State.inRange_zero.registers
  cells address := inWordRange_writeAll h State.inRange_zero.cells address

end Program

namespace Machine

variable {ι : Type} (m : Machine ι) {p : Program}

/-- What a load of a program that fits leaves, what it tells, and that it succeeds. -/
theorem load_of_loadable (h : p.Loadable) :
    (m.load p).next = ⟨p.loadedState, p, none, m.input, h.extent_le⟩ ∧
      (m.load p).journal.events =
        Register.all.map (.registerChanged · 0) ++ [.flagsChanged .clear]
          ++ p.entries.map (fun e => .memoryWritten e.address e.word) ∧
      (m.load p).result = .ok () := by
  have writable : p.writable = p.entries := Program.writable_of_loadable h
  unfold load
  dsimp only
  split
  · next violation found =>
    rw [Program.violation?_eq_none_iff.2 h] at found
    cases found
  · refine ⟨?_, ?_, rfl⟩
    · rw [Memory.load, writable]
      rfl
    · simp [Memory.load, clearedJournal]

/-- **A load leaves nothing of the past** but the input source. -/
theorem load_next (h : p.Loadable) :
    (m.load p).next = ⟨p.loadedState, p, none, m.input, h.extent_le⟩ :=
  (m.load_of_loadable h).1

/-- The events of a load: every register and the flags are cleared, then the entries written. -/
theorem events_load (h : p.Loadable) :
    (m.load p).journal.events =
      Register.all.map (.registerChanged · 0) ++ [.flagsChanged .clear]
        ++ p.entries.map (fun e => .memoryWritten e.address e.word) :=
  (m.load_of_loadable h).2.1

/-- A load of a program that fits is no violation. -/
theorem load_result (h : p.Loadable) : (m.load p).result = .ok () := (m.load_of_loadable h).2.2

end Machine
end DecimalMachine
