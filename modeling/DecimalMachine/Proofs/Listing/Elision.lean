/-
# What the ellipses of a listing stand for

A printed listing is a list of rows and of gaps between them. Nothing is lost in it: a gap between the rows
of two addresses stands for a row of filler at each address between them, and putting these back gives the
rows of the program.

* `elide` leaves out the inner part of runs of filler, seven rows or more at a time (`Omission`).
* A gap is printed exactly where rows were left out, because the rows of a program have consecutive
  addresses (`restore_marked`), so it stands between two rows (`Spaced`).
-/

import DecimalMachine.Command.Plan
import DecimalMachine.Proofs.Image.Canonical
import DecimalMachine.Proofs.Listing.Blocks
import DecimalMachine.Proofs.Listing.Rows

namespace DecimalMachine
namespace Listing

/-! ### Lines -/

/-- A line of a printed listing: a row, or the mark of a gap in the addresses. -/
inductive Line where
  | row (r : Row)
  | gap
  deriving DecidableEq, Repr

/-- A line as it is printed. -/
def Line.text : Line → String
  | row r => r.text
  | gap => ellipsis

/-- The lines for rows that follow a row at the `previous` address, if any does. -/
def marked (previous : Option Nat) : List Row → List Line
  | [] => []
  | r :: rest =>
    if ∀ address ∈ previous, address + 1 = r.address then .row r :: marked (some r.address) rest
    else .gap :: .row r :: marked (some r.address) rest

/-- A row that a listing may leave out: a zero without a source line. -/
def filler (address : Nat) : Row := ⟨address, 0, none, "HALT"⟩

/-- The rows that are missing between those of two addresses. -/
def between : Option Nat → Option Nat → List Row
  | some a, some b => (List.range' (a + 1) (b - (a + 1))).map filler
  | _, _ => []

/-- The address of the row that comes first, if a row does. -/
def nextAddress? : List Line → Option Nat
  | .row r :: _ => some r.address
  | _ => none

/-- The rows that lines stand for: every gap is filled, from the row before it to the row behind it. -/
def restore (previous : Option Nat) : List Line → List Row
  | [] => []
  | .row r :: rest => r :: restore (some r.address) rest
  | .gap :: rest => between previous (nextAddress? rest) ++ restore previous rest

/-- What is printed are the rows with a mark for each gap. -/
theorem printAfter_eq (address : Nat) (rows : List Row) :
    printAfter address rows = (marked (some address) rows).map Line.text := by
  induction rows generalizing address with
  | nil => rfl
  | cons r rest ih =>
    unfold printAfter marked
    by_cases next : address + 1 = r.address
    · simp [next, ih, Line.text]
    · simp [next, ih, Line.text]

/-- The printed lines are the rows, with the gaps marked. -/
theorem print_eq (rows : List Row) : print rows = (marked none rows).map Line.text := by
  cases rows with
  | nil => rfl
  | cons r rest =>
    rw [print, printAfter_eq]
    rfl

/-- No row looks like a gap. -/
theorem Row.text_ne_ellipsis (r : Row) : r.text ≠ ellipsis := by
  intro same
  have colon : ':' ∈ r.text.toList := by
    simp [Row.text]
  rw [same] at colon
  exact absurd colon (by decide)

/-! ### Rows with consecutive addresses -/

/-- The rows of as many addresses in a row, from `address` on. -/
def Consecutive (address : Nat) : List Row → Prop
  | [] => True
  | r :: rest => r.address = address ∧ Consecutive (address + 1) rest

/-- Rows are consecutive if their parts are, one behind the other. -/
theorem consecutive_append {address : Nat} {rows others : List Row} :
    Consecutive address (rows ++ others) ↔
      Consecutive address rows ∧ Consecutive (address + rows.length) others := by
  induction rows generalizing address with
  | nil => simp [Consecutive]
  | cons r rest ih =>
    rw [List.cons_append, Consecutive, ih, Consecutive, List.length_cons, and_assoc,
      Nat.add_right_comm address 1, Nat.add_assoc]

/-- A row that is filler shows a halt, like any other. -/
def Plain (r : Row) : Prop := r.isFiller = true → r = filler r.address

/-- Consecutive filler is determined by where it begins and how long it is. -/
theorem eq_map_filler {address : Nat} {run : List Row} (consecutive : Consecutive address run)
    (plain : ∀ r ∈ run, Plain r) (hfiller : ∀ r ∈ run, r.isFiller = true) :
    run = (List.range' address run.length).map filler := by
  induction run generalizing address with
  | nil => rfl
  | cons r rest ih =>
    obtain ⟨rfl, hrest⟩ := consecutive
    rw [List.forall_mem_cons] at plain hfiller
    rw [List.length_cons, List.range'_succ, List.map_cons, ← ih hrest plain.2 hfiller.2,
      ← plain.1 hfiller.1]

/-! ### What is left out -/

/-- `kept` is `rows` without the inner rows of some runs of filler, seven of them or more at a time. -/
inductive Omission : List Row → List Row → Prop
  | nil : Omission [] []
  | keep (r : Row) {rows kept : List Row} (rest : Omission rows kept) :
      Omission (r :: rows) (r :: kept)
  | leaveOut (first last : Row) {run rows kept : List Row} (long : 7 ≤ run.length)
      (filler : ∀ r ∈ run, r.isFiller = true) (rest : Omission rows kept) :
      Omission (first :: (run ++ last :: rows)) (first :: last :: kept)

/-- More rows in front can be kept. -/
theorem Omission.keepAll {rows kept : List Row} (h : Omission rows kept) (run : List Row) :
    Omission (run ++ rows) (run ++ kept) := by
  induction run with
  | nil => exact h
  | cons r run ih => exact .keep r ih

/-- A run of filler in front of rows is shortened as a whole. -/
theorem Omission.shorten {rows kept run : List Row} (h : Omission rows kept)
    (hrun : ∀ r ∈ run, r.isFiller = true) :
    Omission (run ++ rows) (Listing.shorten run ++ kept) := by
  rcases shorten_cases run with ⟨-, same⟩ | ⟨first, inner, last, rfl, long, ends⟩
  · rw [same]
    exact h.keepAll run
  · have inside : ∀ r ∈ inner, r.isFiller = true := fun r member => hrun r (by simp [member])
    rw [ends]
    simpa using Omission.leaveOut first last long inside h

/-- **Elision leaves out the inside of filler alone.** -/
theorem omission_elideFrom {run : List Row} (rows : List Row)
    (hrun : ∀ r ∈ run, r.isFiller = true) :
    Omission (run.reverse ++ rows) (elideFrom run rows) := by
  induction rows generalizing run with
  | nil =>
    have hnil : Omission (run.reverse ++ []) (Listing.shorten run.reverse ++ []) :=
      Omission.nil.shorten (by simpa using hrun)
    simpa [elideFrom] using hnil
  | cons r rest ih =>
    unfold elideFrom
    by_cases fills : r.isFiller = true
    · have hrest := ih (List.forall_mem_cons.2 ⟨fills, hrun⟩)
      rw [if_pos fills]
      simpa using hrest
    · have hrest : Omission ([].reverse ++ rest) (elideFrom [] rest) := ih (List.forall_mem_nil _)
      rw [if_neg fills]
      exact (hrest.keep r).shorten (by simpa using hrun)

/-- **Eliding leaves out the inside of long runs of filler** and nothing else. -/
theorem omission_elide (rows : List Row) : Omission rows (elide rows) :=
  omission_elideFrom rows (List.forall_mem_nil _)

/-- What is kept was there. -/
theorem Omission.subset {rows kept : List Row} (h : Omission rows kept) : kept ⊆ rows := by
  induction h with
  | nil => exact List.Subset.refl _
  | keep r rest ih => exact List.cons_subset_cons r ih
  | @leaveOut first last run rows kept long filler rest ih =>
    refine List.cons_subset_cons first fun r member => List.mem_append_right run ?_
    exact List.cons_subset_cons last ih member

/-- What is left out is filler. -/
theorem Omission.isFiller {rows kept : List Row} (h : Omission rows kept) :
    ∀ r ∈ rows, r ∉ kept → r.isFiller = true := by
  induction h with
  | nil => nofun
  | keep r rest ih =>
    intro s member missing
    rw [List.mem_cons, not_or] at missing
    rcases List.mem_cons.1 member with rfl | member
    · exact absurd rfl missing.1
    · exact ih s member missing.2
  | @leaveOut first last run rows kept long filler rest ih =>
    intro s member missing
    rw [List.mem_cons, List.mem_cons, not_or, not_or] at missing
    rw [List.mem_cons, List.mem_append, List.mem_cons] at member
    rcases member with rfl | member | rfl | member
    · exact absurd rfl missing.1
    · exact filler s member
    · exact absurd rfl missing.2.1
    · exact ih s member missing.2.2

/-! ### Filling the gaps -/

/-- A row that follows the last one gets no mark. -/
theorem marked_of_next {previous : Option Nat} {r : Row} {rows : List Row}
    (next : ∀ address ∈ previous, address + 1 = r.address) :
    marked previous (r :: rows) = .row r :: marked (some r.address) rows :=
  if_pos next

/-- Neither does the first row. -/
theorem marked_first {r : Row} {rows : List Row} :
    marked none (r :: rows) = .row r :: marked (some r.address) rows :=
  marked_of_next (by simp)

/-- A row that does not follow the last one is marked. -/
theorem marked_of_far {address : Nat} {r : Row} {rows : List Row} (far : address + 1 ≠ r.address) :
    marked (some address) (r :: rows) = .gap :: .row r :: marked (some r.address) rows :=
  if_neg fun next => far (next address rfl)

/-- **Filling the gaps gives back the rows**, behind a row of the address before them or at the start. -/
theorem Omission.restore_marked {rows kept : List Row} (h : Omission rows kept) {address : Nat}
    {previous : Option Nat} (continues : ∀ a ∈ previous, a + 1 = address)
    (consecutive : Consecutive address rows) (plain : ∀ r ∈ rows, Plain r) :
    restore previous (marked previous kept) = rows := by
  induction h generalizing address previous with
  | nil => rfl
  | @keep r rows kept rest ih =>
    obtain ⟨rfl, hrest⟩ := consecutive
    rw [marked_of_next continues, restore, ih (by simp) hrest (List.forall_mem_cons.1 plain).2]
  | @leaveOut first last run rows kept long filler rest ih =>
    obtain ⟨rfl, htail⟩ := consecutive
    obtain ⟨hrun, hlast, hrows⟩ := consecutive_append.1 htail
    rw [List.forall_mem_cons, List.forall_mem_append, List.forall_mem_cons] at plain
    obtain ⟨-, plainRun, -, plainRows⟩ := plain
    have far : first.address + 1 ≠ last.address := by omega
    have inside : between (some first.address) (some last.address) = run := by
      rw [between, eq_map_filler hrun plainRun filler, hlast]
      simp
    rw [marked_of_next continues, restore, marked_of_far far, restore, nextAddress?, inside, restore,
      ih (by simp [hlast]) hrows plainRows]

/-! ### Where the gaps are -/

/-- Lines that begin and end with a row, in which a gap stands for at least seven addresses. -/
inductive Spaced : List Line → Prop
  | last (r : Row) : Spaced [.row r]
  | next (a b : Row) {rest : List Line} (next : a.address + 1 = b.address)
      (h : Spaced (.row b :: rest)) : Spaced (.row a :: .row b :: rest)
  | gap (a b : Row) {rest : List Line} (far : a.address + 7 < b.address)
      (h : Spaced (.row b :: rest)) : Spaced (.row a :: .gap :: .row b :: rest)

/-- A gap has a row before it and a row behind it. -/
theorem Spaced.around {lines before after : List Line} (h : Spaced lines)
    (split : lines = before ++ .gap :: after) :
    ∃ earlier a b later, before = earlier ++ [.row a] ∧ after = .row b :: later ∧
      a.address + 7 < b.address := by
  induction h generalizing before with
  | last r =>
    rcases before with _ | ⟨x, before⟩ <;> simp at split
  | next a b next h ih =>
    obtain _ | ⟨x, before⟩ := before
    · simp at split
    obtain ⟨rfl, hrest⟩ := List.cons.inj split
    obtain ⟨earlier, c, d, later, rfl, rfl, far⟩ := ih hrest
    exact ⟨.row a :: earlier, c, d, later, rfl, rfl, far⟩
  | @gap a b rest far h ih =>
    obtain _ | ⟨x, _ | ⟨y, before⟩⟩ := before
    · simp at split
    · simp only [List.cons_append, List.nil_append, List.cons.injEq, true_and] at split
      obtain ⟨rfl, rfl⟩ := split
      exact ⟨[], a, b, rest, rfl, rfl, far⟩
    · simp only [List.cons_append, List.cons.injEq] at split
      obtain ⟨rfl, rfl, hrest⟩ := split
      obtain ⟨earlier, c, d, later, rfl, rfl, farther⟩ := ih hrest
      exact ⟨.row a :: .gap :: earlier, c, d, later, rfl, rfl, farther⟩

/-- Rows that begin at an address, if there are any, and whose lines are spaced. -/
def Leads (address : Nat) (kept : List Row) : Prop :=
  ∀ s ∈ kept.head?, s.address = address ∧ Spaced (marked none kept)

/-- Behind a row that is kept the next ones are spaced. -/
theorem Leads.cons {r : Row} {kept : List Row} (h : Leads (r.address + 1) kept) :
    Spaced (.row r :: marked (some r.address) kept) := by
  rcases kept with _ | ⟨s, rest⟩
  · exact .last r
  · obtain ⟨hs, hspaced⟩ := h s rfl
    rw [marked_first] at hspaced
    rw [marked_of_next (by simpa using hs.symm)]
    exact .next r s hs.symm hspaced

/-- What is kept of consecutive rows begins with the first of them, and its lines are spaced. -/
theorem Omission.leads {rows kept : List Row} (h : Omission rows kept) {address : Nat}
    (consecutive : Consecutive address rows) : Leads address kept := by
  induction h generalizing address with
  | nil => nofun
  | @keep r rows kept rest ih =>
    obtain ⟨hr, hrest⟩ := consecutive
    rintro s ⟨⟩
    rw [marked_first]
    exact ⟨hr, Leads.cons (hr ▸ ih hrest)⟩
  | @leaveOut first last run rows kept long filler rest ih =>
    obtain ⟨hfirst, htail⟩ := consecutive
    obtain ⟨-, hlast, hrows⟩ := consecutive_append.1 htail
    have far : first.address + 7 < last.address := by omega
    rintro s ⟨⟩
    rw [marked_first, marked_of_far (by omega)]
    exact ⟨hfirst, .gap first last far (Leads.cons (hlast ▸ ih hrows))⟩

/-! ### Whole programs -/

variable {p : Program}

/-- Filler without a source line has no entry, so it shows the halt that its zero stands for. -/
theorem plain_rowAt (image : Memory) (address : Nat) : Plain (rowAt p image address) := by
  intro fills
  obtain ⟨zero, unnamed⟩ := Row.isFiller_iff.1 fills
  simp only [rowAt, Program.lineAt?, Option.map_eq_none_iff] at zero unnamed
  rw [rowAt, Program.lineAt?, unnamed, zero]
  rfl

/-- The rows of a program are consecutive. -/
theorem consecutive_rowAt (image : Memory) (address count : Nat) :
    Consecutive address ((List.range' address count).map (rowAt p image)) := by
  induction count generalizing address with
  | zero => trivial
  | succ count ih => exact ⟨rfl, ih (address + 1)⟩

/-- The rows of a program that fits: one for each address below the extent. -/
theorem exists_rows (h : p.Loadable) :
    ∃ rows, Listing.rows p = .ok rows ∧ rows.map Row.address = List.range p.extent ∧
      Consecutive 0 rows ∧ ∀ r ∈ rows, Plain r := by
  have consecutive := consecutive_rowAt (p := p) (Program.writeAll .zero p.entries) 0 p.extent
  rw [← List.range_eq_range'] at consecutive
  refine ⟨_, rows_of_loadable h, ?_, consecutive, ?_⟩
  · rw [List.map_map]
    exact List.map_id _
  · exact List.forall_mem_map.2 fun address _ => plain_rowAt _ address

end Listing

open Listing

/-- **A printed listing is lossless.** Of every file that can be read, the disassembler prints the rows that
`elide` keeps, with a gap marked between two of them whose addresses do not follow each other. Filling each gap
with a row of filler for every address between them gives back all rows, one for each address below the
extent. A gap stands for seven rows at least and has a printed row on both sides; no row with a source line
or with a word other than zero is left out; and one more than the address of a row is still a byte. -/
theorem printed_listing_lossless {bytes rest : List UInt8} {p : Program}
    (h : Image.read bytes = .ok (p, rest)) :
    ∃ rows, Listing.rows p = .ok rows ∧ rows.map Row.address = List.range p.extent ∧
      (∀ (i : Inputs) (name : String), i.file? name = some bytes →
        Tool.planDisassembler i name =
          .finished ⟨Job.success, Tool.screenOfLines ((marked none (elide rows)).map Line.text)⟩) ∧
      restore none (marked none (elide rows)) = rows ∧
      (∀ before after, marked none (elide rows) = before ++ .gap :: after →
        ∃ earlier a b later, before = earlier ++ [.row a] ∧ after = .row b :: later ∧
          a.address + 7 < b.address) ∧
      (∀ r ∈ rows, r ∉ elide rows → r.word = 0 ∧ r.line = none) ∧
      ∀ r ∈ elide rows, r.address + 1 < UInt8.size ∧ r.text ≠ ellipsis := by
  obtain ⟨-, -, entries⟩ := Image.bytes_of_read h
  have loadable : p.Loadable := fun e member => (entries e member).1
  obtain ⟨rows, hrows, addresses, consecutive, plain⟩ := exists_rows loadable
  have omission := omission_elide rows
  refine ⟨rows, hrows, addresses, ?_, omission.restore_marked (by simp) consecutive plain, ?_, ?_, ?_⟩
  · intro i name found
    have himage : i.image? name = some p := by
      rw [Inputs.image?, found, Option.bind_some, Image.readProgram, h]
      rfl
    have hprinted : printed p = .ok ((marked none (elide rows)).map Line.text) := by
      rw [printed, hrows, ← print_eq]
      rfl
    rw [Tool.planDisassembler, himage]
    dsimp only
    rw [hprinted]
  · intro before after split
    cases hkept : elide rows with
    | nil =>
      rw [hkept] at split
      simp [marked] at split
    | cons r kept =>
      have leads := omission.leads consecutive
      rw [hkept] at leads split
      exact (leads r rfl).2.around split
  · intro r member missing
    exact Row.isFiller_iff.1 (omission.isFiller r member missing)
  · intro r member
    have listed : r.address ∈ rows.map Row.address := List.mem_map_of_mem (omission.subset member)
    rw [addresses, List.mem_range] at listed
    have room : p.extent ≤ 100 := loadable.extent_le
    refine ⟨?_, r.text_ne_ellipsis⟩
    unfold UInt8.size
    omega

/-- A file with an `OUT` at address 0 and a word of data at address 10. -/
def sparse : List UInt8 := [1, 2, 2, 0, 0, 0, 134, 3, 1, 0, 0, 0, 10, 0, 5, 0, 2, 0, 1, 0]

/-- What it is read as. -/
def sparseProgram : Program := ⟨[⟨0, 902, 1, "OUT", 0⟩, .ofData 10 5 2]⟩

/-- Seven of the nine rows between the two are left out, and come back. -/
theorem printed_listing_lossless_sparse :
    Image.read sparse = .ok (sparseProgram, []) ∧
      Listing.printed sparseProgram = .ok ["00:\t 902\tOUT\t; line 1", "01:\t   0\tHALT", "...",
        "09:\t   0\tHALT", "10:\t   5\tDAT 5\t; line 2"] ∧
      Listing.rows sparseProgram = .ok (restore none [.row ⟨0, 902, some 1, "OUT"⟩, .row (filler 1), .gap,
        .row (filler 9), .row ⟨10, 5, some 2, "DAT 5"⟩]) := by
  have hread : Image.read sparse = .ok (sparseProgram, []) := by decide +kernel
  obtain ⟨rows, hrows, -, -, restored, -⟩ := printed_listing_lossless hread
  have hlines : (Listing.rows sparseProgram).map (fun rows => marked none (elide rows)) =
      .ok [.row ⟨0, 902, some 1, "OUT"⟩, .row (filler 1), .gap, .row (filler 9),
        .row ⟨10, 5, some 2, "DAT 5"⟩] := by decide +kernel
  rw [hrows] at hlines ⊢
  rw [Except.map, Except.ok.injEq] at hlines
  rw [← hlines, restored]
  exact ⟨hread, by decide +kernel, rfl⟩

end DecimalMachine
