/-
# Copies across a load or a reset

A copy of the state can follow the steps of a machine by its events, but not every load and reset. Both zero
the whole memory at once, and what they tell is less than that:

| part of the state | told by a load | told by a reset |
| --- | --- | --- |
| registers, flags | all of them | all of them |
| cell of an entry of the program | the word of the entry | |
| any other cell | nothing | nothing |

So a copy keeps in a cell that is not told what it had there, and is exact in this cell only if that was
zero. `State.CopiedWhere` says in which cells a copy is exact.
-/

import DecimalMachine.Proofs.Machine.History
import DecimalMachine.Proofs.Machine.Replay

namespace DecimalMachine

namespace State

/-- A copy that has the registers and the flags of the state `after`, and a cell of it exactly if the
address of the cell is one of those `told`. -/
structure CopiedWhere (copy after : State) (told : Nat → Prop) : Prop where
  registers : copy.registers = after.registers
  flags : copy.flags = after.flags
  cells : ∀ address < memorySize,
    copy.memory.get address = after.memory.get address ↔ told address

/-- A copy is exact if it is so in every cell. -/
theorem CopiedWhere.eq_iff {copy after : State} {told : Nat → Prop}
    (h : copy.CopiedWhere after told) : copy = after ↔ ∀ address < memorySize, told address := by
  constructor
  · rintro same address room
    exact (h.cells address room).1 (by rw [same])
  · intro all
    have memory : copy.memory = after.memory :=
      Memory.ext_get fun address room => (h.cells address room).2 (all address room)
    cases copy
    cases after
    obtain ⟨registers, flags, -⟩ := h
    simp_all

variable (s : State)

/-- What a copy makes of the events of a cleared machine: its memory stays. -/
theorem followAll_cleared :
    s.followAll Machine.clearedJournal.events = { zero with memory := s.memory } := rfl

/-- A copy that is told of entries has them written. -/
theorem followAll_written (entries : List Entry) :
    s.followAll (entries.map fun e => .memoryWritten e.address e.word) =
      { s with memory := Program.writeAll s.memory entries } := by
  induction entries generalizing s with
  | nil => rfl
  | cons e rest ih =>
    rw [List.map_cons, followAll_cons, ih]
    rfl

end State

namespace Machine

variable {ι : Type} (m : Machine ι) {p : Program}

/-- A copy that follows a load has the entries written over what it had before. -/
theorem followAll_load (h : p.Loadable) :
    m.state.followAll (m.load p).journal.events =
      { State.zero with memory := Program.writeAll m.state.memory p.entries } := by
  have hcleared : Register.all.map (.registerChanged · 0) ++ [.flagsChanged .clear] =
      clearedJournal.events := rfl
  rw [m.events_load h, hcleared, State.followAll_append, State.followAll_cleared,
    State.followAll_written]

/-- **A load tells the cells of its entries.** -/
theorem copiedWhere_load (h : p.Loadable) :
    (m.state.followAll (m.load p).journal.events).CopiedWhere (m.load p).next.state fun address =>
      (p.entryAt? address).isSome = true ∨ m.state.memory.get address = 0 := by
  rw [m.followAll_load h, m.load_next h]
  refine ⟨rfl, rfl, fun address room => ?_⟩
  have hcopy := Program.get_writeAll h m.state.memory address
  have hloaded := Program.get_writeAll h .zero address
  dsimp only [Program.loadedState]
  rw [hcopy, hloaded]
  cases p.entryAt? address with
  | some e => simp
  | none => simp

/-- **A reset tells no cell.** -/
theorem copiedWhere_reset :
    (m.state.followAll m.reset.journal.events).CopiedWhere m.reset.next.state fun address =>
      m.state.memory.get address = 0 := by
  have hcopy : m.state.followAll m.reset.journal.events =
      { State.zero with memory := m.state.memory } := m.state.followAll_cleared
  rw [hcopy]
  refine ⟨rfl, rfl, fun address room => ?_⟩
  have hzero : m.reset.next.state.memory.get address = 0 := Memory.get_zero address
  rw [hzero]

/-- **What an observer can follow of a load or a reset**, whatever machine it is asked of: the registers, the
flags, and every cell that an entry of the program names or that held zero before. So its copy is exact
after a load exactly if no other cell held anything but zero, and after a reset exactly if no cell did. -/
theorem follows_restart_iff (h : p.Loadable) :
    let loaded := m.state.followAll (m.load p).journal.events
    let cleared := m.state.followAll m.reset.journal.events
    (loaded.CopiedWhere (m.load p).next.state fun address =>
        (p.entryAt? address).isSome = true ∨ m.state.memory.get address = 0) ∧
      (loaded = (m.load p).next.state ↔
        ∀ address < memorySize, p.entryAt? address = none → m.state.memory.get address = 0) ∧
      (cleared.CopiedWhere m.reset.next.state fun address => m.state.memory.get address = 0) ∧
      (cleared = m.reset.next.state ↔ m.state.memory = .zero) := by
  intro loaded cleared
  have hloaded := m.copiedWhere_load h
  have hcleared := m.copiedWhere_reset
  refine ⟨hloaded, hloaded.eq_iff.trans ?_, hcleared, hcleared.eq_iff.trans ?_⟩
  · refine forall₂_congr fun address _ => ?_
    cases p.entryAt? address with
    | some e => simp
    | none => simp
  · constructor
    · intro all
      exact Memory.ext_get fun address room => by rw [all address room, Memory.get_zero]
    · intro zero address _
      rw [zero, Memory.get_zero]

/-- A machine on which a program of two words was loaded. -/
def twoLoaded : Machine (List Int) :=
  ((History.new []).performAll [.load (.ofWords [5, 7])]).next.machine

/-- Another program of two words is told in full. -/
theorem follows_restart_twoLoaded :
    (Program.ofWords [901, 0]).Loadable ∧
      twoLoaded.state.followAll (twoLoaded.load (.ofWords [901, 0])).journal.events =
        (twoLoaded.load (.ofWords [901, 0])).next.state := by
  have fits : (Program.ofWords [901, 0]).Loadable := by decide
  obtain ⟨-, hloaded, -⟩ := twoLoaded.follows_restart_iff fits
  exact ⟨fits, hloaded.2 (by decide +kernel)⟩

/-- **Not every load and not every reset can be followed.** After a program of one word was loaded over the
two, the copy still holds the 7, and after a reset the 5 as well. -/
theorem restart_leaves_stale_copy :
    (Program.ofWords [9]).Loadable ∧
      twoLoaded.state.followAll (twoLoaded.load (.ofWords [9])).journal.events ≠
        (twoLoaded.load (.ofWords [9])).next.state ∧
      twoLoaded.state.followAll twoLoaded.reset.journal.events ≠ twoLoaded.reset.next.state := by
  refine ⟨by decide, fun same => ?_, fun same => ?_⟩
  · have stale := congrArg (fun s : State => s.memory.get 1) same
    exact absurd stale (by decide +kernel)
  · have stale := congrArg (fun s : State => s.memory.get 0) same
    exact absurd stale (by decide +kernel)

end Machine
end DecimalMachine
