/-
# Written and read again

An image file keeps the address, the word, the line and the kind of every entry, but neither
mnemonic nor operand. Reading takes them from the word, so what comes back is the canonical form of
the entry:

| entry | mnemonic | operand |
| --- | --- | --- |
| plain word | `DAT` | the word |
| instruction | the name of the decoded opcode | the decoded operand |

The writer checks the number of entries and the lines, the reader the addresses, the words and that
an instruction can be decoded. An assembled program passes every check of the reader and is
canonical.
-/

import DecimalMachine.Image
import DecimalMachine.Proofs.Assembly.Entries
import Mathlib.Data.List.TakeWhile

namespace DecimalMachine

namespace Entry

/-- An entry whose address and word are numbers of 16 bits, the word with a sign. -/
structure Fits (e : Entry) : Prop where
  address : e.address < Bytes.halfModulus
  word : -32768 ≤ e.word ∧ e.word ≤ 32767

instance (e : Entry) : Decidable e.Fits :=
  decidable_of_iff (e.address < Bytes.halfModulus ∧ -32768 ≤ e.word ∧ e.word ≤ 32767)
    ⟨fun ⟨address, word⟩ => ⟨address, word⟩, fun ⟨address, word⟩ => ⟨address, word⟩⟩

/-- An entry that can be read back: it has a cell and a word, and is a plain word or stands for an
instruction. -/
structure Readable (e : Entry) : Prop where
  address : e.address < memorySize
  word : InWordRange e.word
  kind : e.mnemonic = dataMnemonic ∨ (Instruction.decode? e.word).isSome = true

instance (e : Entry) : Decidable e.Readable :=
  decidable_of_iff (e.address < memorySize ∧ InWordRange e.word ∧
      (e.mnemonic = dataMnemonic ∨ (Instruction.decode? e.word).isSome = true))
    ⟨fun ⟨address, word, kind⟩ => ⟨address, word, kind⟩,
      fun ⟨address, word, kind⟩ => ⟨address, word, kind⟩⟩

/-- The entry with the mnemonic and the operand that its word alone tells. -/
def canonical (e : Entry) : Entry :=
  if e.mnemonic = dataMnemonic then { e with operand := e.word }
  else
    match Instruction.decode? e.word with
    | some i => { e with mnemonic := i.opcode.name, operand := i.operand }
    | none => e

/-- Data is what has the mark of data. -/
theorem isData_iff {e : Entry} : e.isData = true ↔ e.mnemonic = dataMnemonic := beq_iff_eq

/-! ### Assembled entries -/

/-- An assembled entry fits into its fields. -/
theorem Assembled.fits {e : Entry} (h : e.Assembled) : e.Fits := by
  obtain ⟨room, low, high⟩ := h.loadable
  unfold memorySize at room
  unfold wordMin at low
  unfold wordMax at high
  constructor
  · unfold Bytes.halfModulus
    omega
  · omega

/-- An assembled entry can be read back. -/
theorem Assembled.readable {e : Entry} (h : e.Assembled) : e.Readable := by
  obtain ⟨room, bound⟩ := h.loadable
  refine ⟨room, bound, ?_⟩
  cases h with
  | data => exact .inl rfl
  | @instruction address i line _ canonical =>
    have hword : Instruction.decode? (ofInstruction address i line).word = some i :=
      Instruction.decode?_encode canonical
    rw [hword]
    exact .inr rfl

/-- **An assembled entry is canonical.** -/
theorem Assembled.canonical_eq {e : Entry} (h : e.Assembled) : e.canonical = e := by
  unfold Entry.canonical
  cases h with
  | data => exact if_pos rfl
  | @instruction address i line _ canonical =>
    have hword : Instruction.decode? (ofInstruction address i line).word = some i :=
      Instruction.decode?_encode canonical
    have hname : (ofInstruction address i line).mnemonic ≠ dataMnemonic :=
      name_ne_dataMnemonic i.opcode
    rw [if_neg hname, hword]
    rfl

end Entry

namespace Image

variable {p : Program} {e : Entry}

/-! ### Writing -/

/-- **What can be written**: at most 65535 entries, each from a line up to 65535. -/
theorem failure_write_eq_none_iff :
    (write p).failure = none ↔ p.size ≤ 65535 ∧ ∀ e ∈ p.entries, e.line ≤ 65535 := by
  have hsize : p.size < Bytes.halfModulus ↔ p.size ≤ 65535 := Nat.lt_succ_iff
  have hlines : (p.entries.dropWhile fun e => decide (e.line < Bytes.halfModulus)) = [] ↔
      ∀ e ∈ p.entries, e.line ≤ 65535 := by
    rw [List.dropWhile_eq_nil_iff]
    refine forall₂_congr fun e _ => ?_
    rw [decide_eq_true_iff]
    exact Nat.lt_succ_iff
  unfold write
  split
  · next few =>
    rw [Option.map_eq_none_iff, List.head?_eq_none_iff, hlines]
    exact (and_iff_right (hsize.1 few)).symm
  · next many => exact iff_of_false nofun fun ⟨few, _⟩ => many (hsize.2 few)

/-- A program that was written has a size that fits into its field. -/
theorem size_lt_of_written (written : (write p).failure = none) : p.size < Bytes.halfModulus :=
  Nat.lt_succ_iff.2 (failure_write_eq_none_iff.1 written).1

/-- So has each of its lines. -/
theorem line_lt_of_written (written : (write p).failure = none) :
    ∀ e ∈ p.entries, e.line < Bytes.halfModulus := by
  intro e member
  exact Nat.lt_succ_iff.2 ((failure_write_eq_none_iff.1 written).2 e member)

/-- **A program that was written is its header with its entries behind.** -/
theorem bytes_write (written : (write p).failure = none) :
    (write p).bytes =
      Bytes.half magic ++ Bytes.half p.size ++ p.entries.flatMap entryBytes := by
  have hall : (p.entries.takeWhile fun e => decide (e.line < Bytes.halfModulus)) = p.entries := by
    rw [List.takeWhile_eq_self_iff]
    exact fun e member => decide_eq_true (line_lt_of_written written e member)
  unfold write
  rw [if_pos (size_lt_of_written written), hall]

/-- An entry has 8 bytes. -/
theorem length_entryBytes (e : Entry) : (entryBytes e).length = 8 := rfl

/-- Entries have 8 bytes each. -/
theorem length_flatMap_entryBytes (entries : List Entry) :
    (entries.flatMap entryBytes).length = 8 * entries.length := by
  induction entries with
  | nil => rfl
  | cons e rest ih =>
    rw [List.flatMap_cons, List.length_append, ih, length_entryBytes, List.length_cons]
    omega

/-- The length of an image file. -/
theorem length_bytes_write (written : (write p).failure = none) :
    (write p).bytes.length = 4 + 8 * p.size := by
  rw [bytes_write written, List.length_append, length_flatMap_entryBytes]
  rfl

/-! ### Reading -/

/-- Reading the bytes of an entry is reading its four words. -/
theorem readEntries_entryBytes (fits : e.Fits) (line : e.line < Bytes.halfModulus) (count : Nat)
    (before : List Entry) (rest : List UInt8) :
    readEntries (count + 1) before (entryBytes e ++ rest) =
      (entryOf e.address e.word e.line (kindOf e)).bind fun d =>
        readEntries count (d :: before) rest := by
  have hkind : kindOf e < Bytes.halfModulus := by
    unfold kindOf
    split <;> decide
  obtain ⟨a0, a1, ha, haddress⟩ := Bytes.ofHalf_half fits.address
  obtain ⟨w0, w1, hw, hword⟩ := Bytes.ofHalf_half (Bytes.unsigned_lt e.word)
  obtain ⟨l0, l1, hl, hline⟩ := Bytes.ofHalf_half line
  obtain ⟨k0, k1, hk, hkinds⟩ := Bytes.ofHalf_half hkind
  have hbytes : entryBytes e ++ rest = a0 :: a1 :: w0 :: w1 :: l0 :: l1 :: k0 :: k1 :: rest := by
    unfold entryBytes
    rw [ha, hw, hl, hk]
    rfl
  rw [hbytes, readEntries, haddress, hword, hline, hkinds, Bytes.signed_unsigned fits.word]
  cases entryOf e.address e.word e.line (kindOf e) <;> rfl

/-- Data is of kind 1. -/
theorem kindOf_of_data (h : e.mnemonic = Entry.dataMnemonic) : kindOf e = 1 :=
  if_pos (Entry.isData_iff.2 h)

/-- Anything else is of kind 0. -/
theorem kindOf_of_not_data (h : e.mnemonic ≠ Entry.dataMnemonic) : kindOf e = 0 :=
  if_neg (mt Entry.isData_iff.1 h)

/-- The canonical form of a readable entry is what its words describe. -/
theorem entryOf_of_readable (h : e.Readable) :
    entryOf e.address e.word e.line (kindOf e) = .ok e.canonical := by
  unfold entryOf Entry.canonical
  rw [if_neg (not_not.2 h.address), if_neg (not_not.2 h.word)]
  by_cases data : e.mnemonic = Entry.dataMnemonic
  · rw [kindOf_of_data data, if_pos data, if_pos rfl, Entry.ofData, ← data]
  · obtain ⟨i, hi⟩ := Option.isSome_iff_exists.1 (h.kind.resolve_left data)
    rw [kindOf_of_not_data data, if_neg data, hi]
    rfl

/-- No other entry is accepted. -/
theorem readable_of_entryOf {d : Entry}
    (h : entryOf e.address e.word e.line (kindOf e) = .ok d) : e.Readable := by
  unfold entryOf at h
  split at h
  · cases h
  · next room =>
    split at h
    · cases h
    · next bound =>
      refine ⟨not_not.1 room, not_not.1 bound, ?_⟩
      by_cases data : e.mnemonic = Entry.dataMnemonic
      · exact .inl data
      · rw [kindOf_of_not_data data] at h
        cases decoded : Instruction.decode? e.word with
        | some i => exact .inr rfl
        | none =>
          rw [decoded] at h
          cases h

/-- **Readable entries come back** in their canonical form, and what follows them is left. -/
theorem readEntries_of_readable {entries : List Entry} (fits : ∀ e ∈ entries, e.Fits)
    (lines : ∀ e ∈ entries, e.line < Bytes.halfModulus) (readable : ∀ e ∈ entries, e.Readable)
    (before : List Entry) (rest : List UInt8) :
    readEntries entries.length before (entries.flatMap entryBytes ++ rest) =
      .ok (⟨before.reverse ++ entries.map Entry.canonical⟩, rest) := by
  induction entries generalizing before with
  | nil =>
    rw [List.map_nil, List.append_nil]
    rfl
  | cons e others ih =>
    obtain ⟨hfits, hothers⟩ := List.forall_mem_cons.1 fits
    obtain ⟨hline, hlines⟩ := List.forall_mem_cons.1 lines
    obtain ⟨hreadable, hrest⟩ := List.forall_mem_cons.1 readable
    rw [List.flatMap_cons, List.append_assoc, List.length_cons, readEntries_entryBytes hfits hline,
      entryOf_of_readable hreadable]
    refine (ih hothers hlines hrest (e.canonical :: before)).trans ?_
    rw [List.reverse_cons, List.append_assoc]
    rfl

/-- An entry that is not readable ends the reading. -/
theorem readable_of_readEntries {entries : List Entry} (fits : ∀ e ∈ entries, e.Fits)
    (lines : ∀ e ∈ entries, e.line < Bytes.halfModulus) {before : List Entry} {rest : List UInt8}
    {result : Program × List UInt8}
    (h : readEntries entries.length before (entries.flatMap entryBytes ++ rest) = .ok result) :
    ∀ e ∈ entries, e.Readable := by
  induction entries generalizing before with
  | nil => nofun
  | cons e others ih =>
    obtain ⟨hfits, hothers⟩ := List.forall_mem_cons.1 fits
    obtain ⟨hline, hlines⟩ := List.forall_mem_cons.1 lines
    rw [List.flatMap_cons, List.append_assoc, List.length_cons,
      readEntries_entryBytes hfits hline] at h
    cases first : entryOf e.address e.word e.line (kindOf e) with
    | error error =>
      rw [first] at h
      cases h
    | ok d =>
      rw [first] at h
      exact List.forall_mem_cons.2 ⟨readable_of_entryOf first, ih hothers hlines h⟩

/-- Behind a header as many entries are read as it says. -/
theorem read_header {count : Nat} (h : count < Bytes.halfModulus) (body : List UInt8) :
    read (Bytes.half magic ++ Bytes.half count ++ body) = readEntries count [] body := by
  obtain ⟨c0, c1, hc, hcount⟩ := Bytes.ofHalf_half h
  rw [hc]
  show readEntries (Bytes.ofHalf c0 c1) [] body = _
  rw [hcount]

/-! ### Both -/

section RoundTrip

variable (fits : ∀ e ∈ p.entries, e.Fits) (written : (write p).failure = none)

include written in
/-- Behind the header that was written the entries are read. -/
theorem read_write : read (write p).bytes =
    readEntries p.entries.length [] (p.entries.flatMap entryBytes ++ []) := by
  rw [bytes_write written, List.append_nil]
  exact read_header (size_lt_of_written written) _

include fits written in
/-- **A program that was written is read back** if each of its entries can be. -/
theorem read_write_of_readable (readable : ∀ e ∈ p.entries, e.Readable) :
    read (write p).bytes = .ok (⟨p.entries.map Entry.canonical⟩, []) := by
  rw [read_write written]
  exact readEntries_of_readable fits (line_lt_of_written written) readable [] []

include fits written in
/-- Only a program of entries that can be read comes back from its bytes. -/
theorem readable_of_read_write {result : Program × List UInt8}
    (h : read (write p).bytes = .ok result) : ∀ e ∈ p.entries, e.Readable := by
  rw [read_write written] at h
  exact readable_of_readEntries fits (line_lt_of_written written) h

end RoundTrip

/-- **An assembled program comes back** as it was. -/
theorem read_write_assemble {source : String}
    (written : (write (assemble source).program).failure = none) :
    read (write (assemble source).program).bytes = .ok ((assemble source).program, []) := by
  have hall : ∀ e ∈ (assemble source).program.entries, e.Assembled := fun e member =>
    assembled_of_mem_assemble member
  have hcanonical : (assemble source).program.entries.map Entry.canonical =
      (assemble source).program.entries :=
    (List.map_congr_left fun e member => (hall e member).canonical_eq).trans (List.map_id' _)
  rw [read_write_of_readable (fun e member => (hall e member).fits) written
    fun e member => (hall e member).readable, hcanonical]

/-- **The round trip through an image file.** A program can be written exactly if it has at most
65535 entries, each from a line up to 65535. Then the file has four bytes and eight more for each
entry, and it can be read exactly if every entry is readable; the program read is the canonical form
of the one written, and nothing of the file is left. A program that was assembled comes back as it
was. -/
theorem write_read_roundtrip (fits : ∀ e ∈ p.entries, e.Fits) :
    ((write p).failure = none ↔ p.size ≤ 65535 ∧ ∀ e ∈ p.entries, e.line ≤ 65535) ∧
      ((write p).failure = none →
        (write p).bytes.length = 4 + 8 * p.size ∧
          ((∃ result, read (write p).bytes = .ok result) ↔ ∀ e ∈ p.entries, e.Readable) ∧
          ∀ q rest, read (write p).bytes = .ok (q, rest) →
            q = ⟨p.entries.map Entry.canonical⟩ ∧ rest = []) ∧
      ∀ source, (write (assemble source).program).failure = none →
        read (write (assemble source).program).bytes = .ok ((assemble source).program, []) := by
  refine ⟨failure_write_eq_none_iff, fun written => ?_, fun source => read_write_assemble⟩
  refine ⟨length_bytes_write written, ⟨?_, ?_⟩, ?_⟩
  · rintro ⟨result, h⟩
    exact readable_of_read_write fits written h
  · exact fun readable => ⟨_, read_write_of_readable fits written readable⟩
  · intro q rest h
    have hback := read_write_of_readable fits written (readable_of_read_write fits written h)
    rw [hback] at h
    cases h
    exact ⟨rfl, rfl⟩

/-- An instruction with a negative word under another spelling, plain words, and an operand that the
word does not tell. -/
def mixed : Program :=
  ⟨[⟨3, -510, 7, "LDA", 99⟩, .ofData 99 (-999) 9, .ofData 3 902 65535, ⟨4, 12, 0, "HLT", 0⟩]⟩

/-- All four are read back, the instructions as their words spell them. -/
theorem write_read_mixed :
    (∀ e ∈ mixed.entries, e.Fits) ∧ (write mixed).failure = none ∧
      (∀ e ∈ mixed.entries, e.Readable) ∧ (write mixed).bytes.length = 36 ∧
      (∃ result, read (write mixed).bytes = .ok result) ∧
      mixed.entries.map Entry.canonical =
        [⟨3, -510, 7, "LOAD", 10⟩, .ofData 99 (-999) 9, .ofData 3 902 65535,
          ⟨4, 12, 0, "HALT", 12⟩] := by
  have fits : ∀ e ∈ mixed.entries, e.Fits := by decide
  have readable : ∀ e ∈ mixed.entries, e.Readable := by decide
  obtain ⟨hwritten, hback, -⟩ := write_read_roundtrip fits
  have written : (write mixed).failure = none := hwritten.2 (by decide)
  obtain ⟨hlength, hread, -⟩ := hback written
  exact ⟨fits, written, readable, hlength, hread.2 readable, by decide⟩

end Image
end DecimalMachine
