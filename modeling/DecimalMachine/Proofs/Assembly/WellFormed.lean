/-
# Assembled programs are well formed

Whatever stands in a source text, with errors in it or without, each entry of the assembled program has a
cell and a word and stands for the statement on its line:

| statement | mnemonic | operand | word |
| --- | --- | --- | --- |
| data | `DAT` | the word | the word of the statement |
| instruction | the name of the opcode | an address, 0 for `IN` and `OUT` | stands for opcode and operand |

So the program has an image and a listing, and every machine and every idle controller can load it.
-/

import DecimalMachine.Control.Controller
import DecimalMachine.Proofs.Assembly.Entries
import DecimalMachine.Proofs.Listing.Rows
import DecimalMachine.Proofs.Machine.Loaded

namespace DecimalMachine

namespace Entry

/-- A plain word. -/
structure IsPlain (e : Entry) (word : Int) : Prop where
  mnemonic : e.mnemonic = "DAT"
  word : e.word = word
  operand : e.operand = e.word

/-- An instruction, under the name of its opcode, with a word that stands for it. -/
structure IsCoded (e : Entry) (i : Instruction) : Prop where
  mnemonic : e.mnemonic = i.opcode.name
  operand : e.operand = i.operand
  operand_lt : i.operand < 100
  operand_eq_zero : i.opcode = .input ∨ i.opcode = .output → i.operand = 0
  word : Instruction.decode? e.word = some i

/-- An entry that stands for a statement. -/
def StandsFor (e : Entry) : Assembly.Statement → Prop
  | .origin _ => False
  | .data word => e.IsPlain word
  | .instruction i => e.IsCoded i

/-- An entry with a cell and a word, that stands for the statement on one of the given lines. -/
structure WellFormed (lines : List (List Char)) (e : Entry) : Prop where
  address_lt : e.address < 100
  inWordRange : -999 ≤ e.word ∧ e.word ≤ 999
  line_pos : 1 ≤ e.line
  line_le : e.line ≤ lines.length
  standsFor : ∃ line s, lines[e.line - 1]? = some line ∧
    Assembly.Statement.ofLine line = .ok (some s) ∧ e.StandsFor s

/-- An entry of data is a plain one. -/
theorem isPlain_ofData (address : Nat) (word : Int) (line : Nat) :
    (ofData address word line).IsPlain word := ⟨rfl, rfl, rfl⟩

/-- An entry of an instruction is a coded one. -/
theorem isCoded_ofInstruction (address : Nat) {i : Instruction} (h : i.Canonical) (line : Nat) :
    (ofInstruction address i line).IsCoded i where
  mnemonic := rfl
  operand := rfl
  operand_lt := h.operand_lt
  operand_eq_zero full := by
    refine h.operand_eq_zero ?_
    rcases full with full | full <;> rw [full] <;> rfl
  word := Instruction.decode?_encode h

end Entry

namespace Assembly

/-- A placement is what becomes of a statement at some load address. -/
theorem exists_statement_of_mem_place {address : Nat} {statements : List (Located Statement)}
    {p : Located Placement} (h : p ∈ place address statements) :
    ∃ s ∈ statements, ∃ current, p = ⟨s.line, Placement.ofStatement current s⟩ := by
  induction statements generalizing address with
  | nil => cases h
  | cons s rest ih =>
    rw [place, List.mem_cons] at h
    rcases h with rfl | h
    · exact ⟨s, List.mem_cons_self, address, rfl⟩
    · obtain ⟨t, member, current, rfl⟩ := ih h
      exact ⟨t, List.mem_cons_of_mem s member, current, rfl⟩

/-- A statement was read from the line whose number it carries. -/
theorem exists_line_of_statement {lines : List (List Char)} {s : Located Statement}
    (h : s ∈ (readLines 1 lines).filterMap statement?) :
    1 ≤ s.line ∧ ∃ line, lines[s.line - 1]? = some line ∧
      Statement.ofLine line = .ok (some s.value) := by
  obtain ⟨r, hr, hs⟩ := List.mem_filterMap.1 h
  obtain ⟨⟨line, number⟩, member, rfl⟩ := List.mem_map.1 hr
  obtain ⟨first, found⟩ := List.mk_mem_zipIdx_iff_le_and_getElem?_sub.1 member
  unfold statement? at hs
  split at hs
  · next t read =>
    cases hs
    exact ⟨first, line, found, read⟩
  · cases hs

/-- **An entry stands for the statement it was placed for**, at the load address that was met. -/
theorem Placement.standsFor_ofStatement {address : Nat} {s : Located Statement}
    (h : s.value.WellFormed) {e : Entry} (he : entry? (ofStatement address s) = some e) :
    e.StandsFor s.value ∧ e.line = s.line := by
  obtain ⟨line, value⟩ := s
  cases value with
  | origin target =>
    rw [entry_ofStatement_origin] at he
    cases he
  | data word =>
    obtain ⟨rfl, -⟩ := eq_of_entry_ofEntry he
    exact ⟨Entry.isPlain_ofData address word line, rfl⟩
  | instruction i =>
    obtain ⟨rfl, -⟩ := eq_of_entry_ofEntry he
    exact ⟨Entry.isCoded_ofInstruction address h line, rfl⟩

/-- **Every entry of an assembled program is well formed.** -/
theorem wellFormed_of_mem_program {lines : List (List Char)} {e : Entry}
    (h : e ∈ (ofLines lines).program.entries) : e.WellFormed lines := by
  obtain ⟨p, hp, he⟩ := List.mem_filterMap.1 h
  have assembled : e.Assembled := assembled_place (wellFormed_readLines 1 lines) 0 p hp e he
  obtain ⟨s, hs, current, rfl⟩ := exists_statement_of_mem_place hp
  obtain ⟨first, line, found, read⟩ := exists_line_of_statement hs
  obtain ⟨standsFor, same⟩ := Placement.standsFor_ofStatement (wellFormed_readLines 1 lines s hs) he
  have below : s.line - 1 < lines.length := (List.getElem?_eq_some_iff.1 found).1
  refine ⟨assembled.loadable.1, assembled.loadable.2, ?_, ?_, line, s.value, ?_, read, standsFor⟩
  · omega
  · omega
  · rw [same]
    exact found

end Assembly

/-- **Every assembled program can be loaded.** -/
theorem loadable_assemble (source : String) : (assemble source).program.Loadable :=
  fun _ member => (assembled_of_mem_assemble member).loadable

/-- A controller that is not running loads every program that fits. -/
theorem Controller.load_result {ι : Type} (c : Controller ι) {p : Program} (h : p.Loadable) :
    (c.load p).result = if c.running then .error .busy else .ok () := by
  unfold load
  split
  · rfl
  · dsimp only
    rw [c.machine.load_result h]

/-- **Everything that is assembled is well formed and can be loaded.** Its entries have a cell, a word and
a line of the text, and stand for the statement on that line; the extent is one of memory; and neither
the image, nor the listing, nor a load into a machine or a controller ends as a violation. -/
theorem assemble_wellFormed (source : String) :
    (∀ e ∈ (assemble source).program.entries, e.WellFormed (Text.lines source.toList)) ∧
      (assemble source).program.extent ≤ 100 ∧
      (∃ image, (assemble source).program.image? = .ok image) ∧
      (∃ rows, Listing.rows (assemble source).program = .ok rows) ∧
      (∀ {ι : Type} (m : Machine ι), (m.load (assemble source).program).result = .ok ()) ∧
      ∀ {ι : Type} (c : Controller ι),
        (c.load (assemble source).program).result = if c.running then .error .busy else .ok () := by
  have loadable := loadable_assemble source
  refine ⟨fun e member => Assembly.wellFormed_of_mem_program member, loadable.extent_le,
    ⟨_, loadable.image?⟩, ⟨_, Listing.rows_of_loadable loadable⟩, ?_, ?_⟩
  · intro ι m
    exact m.load_result loadable
  · intro ι c
    exact c.load_result loadable

/-- An instruction at the last address with an operand that is reduced, one that finds no room, and a
line with an error. -/
def overflowing : String := "*99\nSUB -1 ; 299\nIN 7\nDAT 1000"

/-- The first instruction is kept, and its operand comes back from its word. -/
theorem assemble_wellFormed_overflowing :
    (⟨99, 299, 2, "SUB", 99⟩ : Entry) ∈ (assemble overflowing).program.entries ∧
      (⟨99, 299, 2, "SUB", 99⟩ : Entry).WellFormed (Text.lines overflowing.toList) := by
  have member : (⟨99, 299, 2, "SUB", 99⟩ : Entry) ∈ (assemble overflowing).program.entries := by
    decide +kernel
  exact ⟨member, (assemble_wellFormed overflowing).1 _ member⟩

end DecimalMachine
