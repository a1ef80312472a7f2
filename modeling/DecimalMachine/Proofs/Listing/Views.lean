/-
# The views of a program agree

A program is a table in which several entries may share an address. It is looked at in these ways:

| view | how it treats the entries |
| --- | --- |
| `entryAt?`, `lineAt?` | searches from the last entry to the first |
| `image?` | writes from the first entry to the last over zeros |
| loaded memory | the same, over whatever was in memory before |
| `extent` | takes the highest address |
| rows of a listing | one for each address below the extent |

The first is the one that the others are compared with: a cell holds the word of the entry that is found
(`get_writeAll`), and the extent is the least bound behind which nothing is found (`isLeast_extent`).

The line of a row is also the one that a machine reports when it fetches from the address of the row. Of all
parts of a step only the fetch reports a line (`addsNo_line_cycle`).
-/

import DecimalMachine.Proofs.Listing.Rows
import DecimalMachine.Proofs.Machine.Block
import DecimalMachine.Proofs.Machine.Silence
import Mathlib.Order.Bounds.Defs
import Mathlib.Tactic.ByContra

namespace DecimalMachine

/-! ### What is found behind the extent -/

namespace Program

variable {p : Program}

/-- There is no entry at an address exactly if none has it. -/
theorem entryAt?_eq_none_iff {address : Nat} :
    p.entryAt? address = none ↔ ∀ e ∈ p.entries, e.address ≠ address := by
  simp [entryAt?]

/-- **The extent is the least bound** such that nothing is found there or behind it. -/
theorem isLeast_extent (p : Program) :
    IsLeast {n | ∀ address, n ≤ address → p.entryAt? address = none} p.extent := by
  constructor
  · intro address behind
    refine entryAt?_eq_none_iff.2 fun e member same => ?_
    have below := address_lt_extent member
    omega
  · intro n bare
    refine extent_le fun e member => ?_
    by_contra behind
    exact entryAt?_eq_none_iff.1 (bare e.address (Nat.le_of_not_lt behind)) e member rfl

end Program

/-! ### The line that a step reports -/

namespace Event

/-- The source line that an event reports. -/
def line? : Event → Option Nat
  | lineExecuted line => some line
  | _ => none

/-- A source line is no event of registers, flags, outputs and notices. -/
theorem isQuiet_line : IsQuiet fun e => e.line?.isSome :=
  ⟨fun _ _ => rfl, fun _ => rfl, fun _ => rfl, fun _ _ => rfl⟩

end Event

/-- What adds no source line adds none to those that were reported. -/
theorem Progress.AddsNo.lines {ι : Type} {p q : Progress ι} (h : AddsNo (fun e => e.line?.isSome) p q) :
    q.journal.events.filterMap Event.line? = p.journal.events.filterMap Event.line? := by
  obtain ⟨added, hadded, silent⟩ := h
  have nothing : added.filterMap Event.line? = [] :=
    List.filterMap_eq_nil_iff.2 fun e member =>
      Option.not_isSome_iff_eq_none.1 (Bool.eq_false_iff.1 (silent e member))
  rw [hadded, List.filterMap_append, nothing, List.append_nil]

namespace Machine

variable {ι : Type} {m : Machine ι}

/-- A fetch reports the line of its entry, if there is one. -/
theorem lines_fetched :
    m.fetched.journal.events.filterMap Event.line? = (m.program.lineAt? m.address).toList := by
  rw [events_fetched, List.filterMap_append, fetchEvents, lineEvents]
  cases m.program.lineAt? m.address <;> rfl

/-- Behind the fetch, a cycle reports no line. -/
theorem addsNo_line_cycle [InputSource ι] (inside : m.pastEnd = false) :
    Progress.AddsNo (fun e => e.line?.isSome) m.fetched m.cycle.1 := by
  have hexecuted (i : Instruction) :
      Progress.AddsNo (fun e => e.line?.isSome) m.fetched (m.executed i).1 :=
    (Progress.addsNo_announce _ Event.isQuiet_line m.address i).trans
      (Progress.addsNo_execute _ Event.isQuiet_line (fun _ => rfl) m.address fun _ _ _ => rfl)
  rw [cycle_of_inside inside]
  split
  · exact .refl _ _
  · next i _ =>
    split
    · exact hexecuted i
    · exact hexecuted i

/-- **A step that fetches reports the line of the program at the address**, if there is one, and no other. -/
theorem lines_step [InputSource ι] (going : m.isStopped = false) (inside : m.pastEnd = false) :
    m.step.journal.events.filterMap Event.line? = (m.program.lineAt? m.address).toList := by
  have settled := ((addsNo_line_cycle inside).trans
    (Progress.addsNo_settle _ Event.isQuiet_line m.cycle.2)).lines
  rw [step_of_not_isStopped going, settled, lines_fetched]

end Machine

/-! ### All views together -/

namespace Program

/-- **The views of a program agree**, in whatever order its entries are and however many there are for an
address:

* a cell of the image holds the word of the entry that is found at its address, or zero;
* a load leaves the image in memory, and on a machine whatever was in memory before;
* the extent is the least bound behind which no entry is found;
* there is one row for each address below the extent, with the word of the image and the line of the program
  there, and a machine that fetches from the address reports that line, or none. -/
theorem views_agree {p : Program} (h : p.Loadable) :
    ∃ image rows, p.image? = .ok image ∧ Listing.rows p = .ok rows ∧
      (∀ a < memorySize, image.get a = (p.entryAt? a).elim 0 Entry.word) ∧
      ((Memory.load p).result = .ok () ∧ (Memory.load p).next = image) ∧
      (∀ (ι : Type) (m : Machine ι),
        (m.load p).result = .ok () ∧ (m.load p).next.program = p ∧
          (m.load p).next.state.memory = image) ∧
      IsLeast {n | ∀ a, n ≤ a → p.entryAt? a = none} p.extent ∧
      rows.length = p.extent ∧
      ∀ a < p.extent, ∃ r, rows[a]? = some r ∧ r.address = a ∧ r.word = image.get a ∧
        r.line = p.lineAt? a ∧
        ∀ (ι : Type) [InputSource ι] (m : Machine ι),
          m.program = p → m.isStopped = false → m.state.pc = a →
            m.step.journal.events.filterMap Event.line? = r.line.toList := by
  have writable : p.writable = p.entries := writable_of_loadable h
  have loaded : (Memory.load p).next = writeAll .zero p.entries := by rw [Memory.load, writable]
  have accepted : (Memory.load p).result = .ok () := by
    rw [Memory.load, violation?_eq_none_iff.2 h]
  refine ⟨_, _, h.image?, Listing.rows_of_loadable h, fun a _ => ?_, ⟨accepted, loaded⟩, fun ι m => ?_,
    p.isLeast_extent, ?_, fun a inside => ?_⟩
  · rw [get_writeAll h, Memory.get_zero]
  · rw [m.load_result h, m.load_next h]
    exact ⟨rfl, rfl, rfl⟩
  · rw [List.length_map, List.length_range]
  · refine ⟨Listing.rowAt p (writeAll .zero p.entries) a, ?_, rfl, rfl, rfl,
      fun ι _ m runs going counter => ?_⟩
    · rw [List.getElem?_map, List.getElem?_range inside]
      rfl
    · have address : m.address = a := by
        rw [Machine.address, counter, Int.toNat_natCast]
      have within : m.pastEnd = false := by
        rw [Machine.pastEnd, runs, counter, Bool.or_eq_false_iff, decide_eq_false_iff_not,
          decide_eq_false_iff_not]
        omega
      rw [Machine.lines_step going within, address, runs]
      rfl

/-- A word that is written over by another, an address that is left out, and a zero that a line put there. -/
def overwritten : Program :=
  ⟨[.ofData 2 5 1, .ofData 0 901 2, .ofData 2 0 3, .ofData 0 105 4]⟩

/-- The later entry of an address decides, and a zero without an entry has no line. -/
theorem views_agree_overwritten :
    overwritten.Loadable ∧ overwritten.extent = 3 ∧
      ∃ image rows, overwritten.image? = .ok image ∧ Listing.rows overwritten = .ok rows ∧
        rows.length = 3 ∧ image.get 0 = 105 ∧
        (∃ r, rows[1]? = some r ∧ r.word = 0 ∧ r.line = none) ∧
        ∃ r, rows[2]? = some r ∧ r.word = 0 ∧ r.line = some 3 := by
  have loadable : overwritten.Loadable := by decide
  obtain ⟨image, rows, himage, hrows, cell, -, -, -, length, row⟩ := views_agree loadable
  obtain ⟨gap, hgap, -, gapWord, gapLine, -⟩ := row 1 (by decide)
  obtain ⟨zero, hzero, -, zeroWord, zeroLine, -⟩ := row 2 (by decide)
  refine ⟨loadable, by decide, image, rows, himage, hrows, length, cell 0 (by decide),
    ⟨gap, hgap, ?_, gapLine⟩, ⟨zero, hzero, ?_, zeroLine⟩⟩
  · exact gapWord.trans (cell 1 (by decide))
  · exact zeroWord.trans (cell 2 (by decide))

end Program
end DecimalMachine
