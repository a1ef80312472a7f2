/-
# Listings assembled again

The texts of the rows of a listing, joined by line feeds, are a source text. It is assembled without
errors into one entry for each row, at the address of the row, and the listing of these entries has the
same addresses and texts again.

Route: each text is a line of its own and is read as the statement that the row shows (`Shown`), the
statements are placed at the addresses from 0 on, and since all of these differ each entry counts at its
own address.
-/

import DecimalMachine.Proofs.Assembly.Erasure
import DecimalMachine.Proofs.Listing.Printed
import DecimalMachine.Proofs.Listing.Rows
import DecimalMachine.Proofs.Machine.Loaded

namespace DecimalMachine

/-! ### Entries at consecutive addresses -/

namespace Program

variable {entries : List Entry} {n : ℕ}

/-- Among entries at different addresses each one counts. -/
theorem entryAt?_of_nodup (h : (entries.map Entry.address).Nodup) {e : Entry} (member : e ∈ entries) :
    entryAt? ⟨entries⟩ e.address = some e := by
  rcases found : entryAt? ⟨entries⟩ e.address with _ | other
  · have missing := List.find?_eq_none.1 found e (List.mem_reverse.2 member)
    exact absurd (beq_self_eq_true e.address) missing
  · have chosen := List.find?_some found
    have same : other.address = e.address := beq_iff_eq.1 chosen
    have hother : other ∈ entries := List.mem_reverse.1 (List.mem_of_find?_eq_some found)
    rw [List.inj_on_of_nodup_map h hother member same]

/-- A program with an entry at each of the first addresses has this extent. -/
theorem extent_of_consecutive (h : entries.map Entry.address = List.range n) :
    extent ⟨entries⟩ = n := by
  have below (e : Entry) (member : e ∈ entries) : e.address < n := by
    rw [← List.mem_range, ← h]
    exact List.mem_map_of_mem member
  refine Nat.le_antisymm (extent_le below) ?_
  rcases n with _ | n
  · exact Nat.zero_le _
  · have last : n ∈ entries.map Entry.address := by
      rw [h]
      exact List.mem_range.2 n.lt_succ_self
    obtain ⟨e, member, rfl⟩ := List.mem_map.1 last
    exact address_lt_extent (p := ⟨entries⟩) member

end Program

/-! ### The statements of a listing, placed -/

namespace Listing

open Assembly

variable {shown : List Shown}

/-- The lines of a listing are read as the statements that they show. -/
theorem readLines_shown (h : ∀ s ∈ shown, s.Valid) (address : ℕ) :
    readLines (address + 1) (shown.map fun s => s.text.toList) =
      (shown.zipIdx address).map fun p => ⟨p.2 + 1, .ok (some p.1.statement)⟩ := by
  induction shown generalizing address with
  | nil => rfl
  | cons s rest ih =>
    obtain ⟨hs, hrest⟩ := List.forall_mem_cons.1 h
    rw [List.map_cons, readLines_cons, Shown.ofLine_text hs, ih hrest]
    rfl

/-- Placed one behind the other they give the entries that they show. -/
theorem place_shown (shown : List Shown) {address : ℕ} (room : address + shown.length ≤ memorySize) :
    place address ((shown.zipIdx address).map fun p => ⟨p.2 + 1, p.1.statement⟩) =
      (shown.zipIdx address).map fun p => ⟨p.2 + 1, .placed (p.1.entry p.2)⟩ := by
  induction shown generalizing address with
  | nil => rfl
  | cons s rest ih =>
    rw [List.length_cons] at room
    have placed : Placement.ofStatement address ⟨address + 1, s.statement⟩ =
        .placed (s.entry address) := by
      rw [Shown.ofStatement_statement, Placement.ofEntry, Shown.entry_address, if_pos (by omega)]
    have later := @ih (address + 1) (by omega)
    rw [List.zipIdx_cons, List.map_cons, List.map_cons, place, placed]
    exact congrArg _ later

/-- **The lines of a listing are assembled into the entries that its rows show.** -/
theorem ofLines_shown (h : ∀ s ∈ shown, s.Valid) (room : shown.length ≤ memorySize) :
    (ofLines (shown.map fun s => s.text.toList)).errors = [] ∧
      (ofLines (shown.map fun s => s.text.toList)).program =
        ⟨shown.zipIdx.map fun p => p.1.entry p.2⟩ := by
  have readings := readLines_shown h 0
  have statements : (readLines 1 (shown.map fun s => s.text.toList)).filterMap statement? =
      shown.zipIdx.map fun p => ⟨p.2 + 1, p.1.statement⟩ := by
    rw [readings, List.filterMap_map]
    exact congrFun (List.filterMap_eq_map (f := fun p : Shown × ℕ =>
      (⟨p.2 + 1, p.1.statement⟩ : Located Statement))) _
  have placements := @place_shown shown 0 (by omega)
  constructor
  · have unread : (readLines 1 (shown.map fun s => s.text.toList)).filterMap readError? = [] := by
      rw [readings, List.filterMap_map]
      exact List.filterMap_eq_nil_iff.2 fun _ _ => rfl
    have unplaced : (ofLines (shown.map fun s => s.text.toList)).placeErrors = [] := by
      rw [placeErrors, ofLines]
      dsimp only
      rw [statements, placements, List.filterMap_map]
      exact List.filterMap_eq_nil_iff.2 fun _ _ => rfl
    rw [errors, unplaced, List.append_nil]
    exact unread
  · rw [program, ofLines]
    dsimp only
    rw [statements, placements, List.filterMap_map]
    exact congrArg _ (congrFun (List.filterMap_eq_map (f := fun p : Shown × ℕ => p.1.entry p.2)) _)

/-! ### The listing of a program -/

/-- The texts of rows as a source text, a line for each row. -/
def source (rows : List Row) : String := "\n".intercalate (rows.map Row.interpretation)

/-- What is shown at an address. -/
def shownAt (p : Program) (image : Memory) (address : ℕ) : Shown :=
  .ofWord (p.entryAt? address) (image.get address)

/-- What is shown at an address has the text of the row. -/
theorem text_shownAt (p : Program) (image : Memory) (address : ℕ) :
    (shownAt p image address).text = (rowAt p image address).interpretation :=
  Shown.text_ofWord _ _

/-- In a mapped range every element has its own number. -/
theorem zipIdx_map_range {α : Type} (f : ℕ → α) (n : ℕ) :
    ((List.range n).map f).zipIdx = (List.range n).map fun a => (f a, a) := by
  refine List.ext_getElem (by simp) fun i hi hi' => ?_
  simp

variable {p : Program} {image : Memory}

/-- A row is assembled into the word of the entry that its text is placed as. -/
theorem reassembled_rowAt {address : ℕ} (bound : InWordRange (image.get address)) :
    (rowAt p image address).reassembled = ((shownAt p image address).entry address).word := by
  have text := text_shownAt p image address
  rcases Shown.ofWord_cases (p.entryAt? address) (image.get address) with shows | ⟨i, decoded, shows⟩
  · rw [shownAt, shows] at text ⊢
    exact reassembled_of_data bound text.symm
  · rw [shownAt, shows] at text ⊢
    exact reassembled_of_code bound decoded text.symm

/-- **A listing that is used as a source text** is assembled without errors into the entries that its rows
show. -/
theorem assemble_source_rows (bound : ∀ a, InWordRange (image.get a)) {n : ℕ} (room : n ≤ memorySize) :
    (assemble (source ((List.range n).map (rowAt p image)))).errors = [] ∧
      (assemble (source ((List.range n).map (rowAt p image)))).program =
        ⟨(List.range n).map fun a => (shownAt p image a).entry a⟩ := by
  have valid : ∀ s ∈ (List.range n).map (shownAt p image), s.Valid := by
    intro s member
    obtain ⟨a, -, rfl⟩ := List.mem_map.1 member
    exact Shown.valid_ofWord _ (bound a)
  have texts : (((List.range n).map (rowAt p image)).map Row.interpretation).map String.toList =
      ((List.range n).map (shownAt p image)).map fun s => s.text.toList := by
    rw [List.map_map, List.map_map, List.map_map]
    refine List.map_congr_left fun a _ => ?_
    exact congrArg String.toList (text_shownAt p image a).symm
  have lines : Text.lines (source ((List.range n).map (rowAt p image))).toList =
      ((List.range n).map (shownAt p image)).map fun s => s.text.toList := by
    have feed : "\n".toList = ['\n'] := rfl
    rw [source, String.toList_intercalate, texts, feed]
    refine Text.lines_intercalate fun text member => ?_
    obtain ⟨s, hs, rfl⟩ := List.mem_map.1 member
    exact Shown.isLine_text (valid s hs)
  have length : ((List.range n).map (shownAt p image)).length ≤ memorySize := by
    rw [List.length_map, List.length_range]
    exact room
  obtain ⟨errors, program⟩ := ofLines_shown valid length
  have entries : (((List.range n).map (shownAt p image)).zipIdx.map fun p => p.1.entry p.2) =
      (List.range n).map fun a => (shownAt p image a).entry a := by
    rw [zipIdx_map_range, List.map_map]
    rfl
  rw [entries] at program
  rw [assemble, lines]
  exact ⟨errors, program⟩

/-- The listing of entries that texts were placed as shows these texts. -/
theorem rows_entries {shown : ℕ → Shown} {n : ℕ} (valid : ∀ a, (shown a).Valid) (room : n ≤ memorySize) :
    ∃ again, rows ⟨(List.range n).map fun a => (shown a).entry a⟩ = .ok again ∧
      again.map (fun r => (r.address, r.interpretation)) =
        (List.range n).map fun a => (a, (shown a).text) := by
  set entries := (List.range n).map fun a => (shown a).entry a with hentries
  have addresses : entries.map Entry.address = List.range n := by
    rw [hentries, List.map_map]
    exact (List.map_congr_left fun a _ => Shown.entry_address a (shown a)).trans (List.map_id _)
  have loadable : ∀ e ∈ entries, e.Loadable := by
    intro e member
    obtain ⟨a, ha, rfl⟩ := List.mem_map.1 member
    exact Shown.loadable_entry (valid a) (Nat.lt_of_lt_of_le (List.mem_range.1 ha) room)
  have distinct : (entries.map Entry.address).Nodup := by
    rw [addresses]
    exact List.nodup_range
  have counts (a : ℕ) (ha : a ∈ List.range n) :
      Program.entryAt? ⟨entries⟩ a = some ((shown a).entry a) := by
    have member : (shown a).entry a ∈ entries := List.mem_map.2 ⟨a, ha, rfl⟩
    have found := Program.entryAt?_of_nodup distinct member
    rw [Shown.entry_address] at found
    exact found
  have extent : Program.extent ⟨entries⟩ = n := Program.extent_of_consecutive addresses
  refine ⟨_, rows_of_loadable loadable, ?_⟩
  rw [extent, List.map_map]
  refine List.map_congr_left fun a ha => ?_
  have word : (Program.writeAll .zero entries).get a = ((shown a).entry a).word := by
    rw [Program.get_writeAll loadable, counts a ha]
    rfl
  have text : interpretation (Program.entryAt? ⟨entries⟩ a) ((Program.writeAll .zero entries).get a) =
      (shown a).text := by
    rw [word, counts a ha]
    exact Shown.interpretation_entry (valid a) a
  exact congrArg (Prod.mk a) text

/-- **A listing can be assembled again.** For a program that fits there are an image and a listing with
a row for each address below the extent, and the listing's texts, joined by line feeds,

* are assembled without errors;
* into one entry for each row, in order, with the address of the row and the word that its text tells;
* and the listing of these entries has the same addresses and the same texts. -/
theorem assemble_source (h : p.Loadable) :
    ∃ image rows again, p.image? = .ok image ∧ Listing.rows p = .ok rows ∧
      rows.map (fun r => (r.address, r.word)) =
        (List.range p.extent).map (fun a => (a, image.get a)) ∧
      (assemble (source rows)).errors = [] ∧
      (assemble (source rows)).program.entries.map (fun e => (e.address, e.word)) =
        rows.map (fun r => (r.address, r.reassembled)) ∧
      Listing.rows (assemble (source rows)).program = .ok again ∧
      again.map (fun r => (r.address, r.interpretation)) =
        rows.map (fun r => (r.address, r.interpretation)) := by
  have bound : ∀ a, InWordRange ((Program.writeAll .zero p.entries).get a) :=
    Program.inWordRange_writeAll h State.inRange_zero.cells
  obtain ⟨errors, program⟩ := assemble_source_rows (p := p) bound h.extent_le
  obtain ⟨again, relisted, columns⟩ := rows_entries
    (fun a => Shown.valid_ofWord (p.entryAt? a) (bound a)) h.extent_le
  refine ⟨_, _, again, h.image?, rows_of_loadable h, ?_, errors, ?_, ?_, ?_⟩
  · rw [List.map_map]
    rfl
  · rw [program, List.map_map, List.map_map]
    refine List.map_congr_left fun a _ => ?_
    exact Prod.ext (Shown.entry_address a _) (reassembled_rowAt (bound a)).symm
  · rw [program]
    exact relisted
  · rw [columns, List.map_map]
    refine List.map_congr_left fun a _ => ?_
    exact congrArg (Prod.mk a) (text_shownAt p _ a)

/-- A negative word, a gap, a word that another one overwrites, an operand that is not shown, a word that
stands for no instruction, and an instruction word that was written as data. -/
def mixed : Program :=
  ⟨[⟨0, -105, 1, "ADD", 5⟩, ⟨2, 7, 2, "DAT", 7⟩, ⟨2, 450, 3, "NOP", 50⟩, ⟨3, 950, 4, "OUT", 0⟩,
    ⟨4, 105, 5, "DAT", 105⟩]⟩

/-- The sign, the operand that is not shown and the filler's lack of a line do not come back. -/
theorem assemble_source_mixed :
    mixed.Loadable ∧ ∃ rows, Listing.rows mixed = .ok rows ∧
      rows.map Row.interpretation = ["ADD 5", "HALT", "NOP", "DAT 950", "DAT 105"] ∧
      (assemble (source rows)).errors = [] ∧
      (assemble (source rows)).program.entries.map (fun e => (e.address, e.word)) =
        [(0, 105), (1, 0), (2, 400), (3, 950), (4, 105)] := by
  have loadable : mixed.Loadable := by decide
  obtain ⟨image, rows, again, -, listed, -, errors, entries, -, -⟩ := assemble_source loadable
  have known : Listing.rows mixed = .ok
      [⟨0, -105, some 1, "ADD 5"⟩, ⟨1, 0, none, "HALT"⟩, ⟨2, 450, some 3, "NOP"⟩,
        ⟨3, 950, some 4, "DAT 950"⟩, ⟨4, 105, some 5, "DAT 105"⟩] := rfl
  obtain rfl := Except.ok.inj (known.symm.trans listed)
  refine ⟨loadable, _, listed, rfl, errors, entries.trans ?_⟩
  decide +kernel

end Listing
end DecimalMachine
