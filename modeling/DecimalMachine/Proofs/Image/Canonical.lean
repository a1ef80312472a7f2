/-
# Only written files are read

The round trip starts from a program; here the bytes come first, whoever made them. Each of the four
words of an entry can be told from the entry that was read:

| word of the file | where it is found again |
| --- | --- |
| address | in the address, which lies below 100 and so below `2^16` |
| memory word | in the word, whose remainder modulo `2^16` it is |
| source line | in the line |
| kind | in the mnemonic, which is `DAT` for plain data and the name of an opcode otherwise |

The number of entries is their count. So a file that is read is the one that writing the program makes,
and no two files are read as the same program.
-/

import DecimalMachine.Proofs.Image.RoundTrip

namespace DecimalMachine
namespace Image

variable {p : Program} {e : Entry} {bytes rest : List UInt8}

/-! ### One entry -/

/-- Data is of kind 1. -/
theorem kindOf_ofData (address : Nat) (word : Int) (line : Nat) :
    kindOf (.ofData address word line) = 1 :=
  kindOf_of_data rfl

/-- An instruction is never taken for plain data, whatever word it was stored as. -/
theorem kindOf_ofInstruction (address : Nat) (i : Instruction) (line : Nat) (word : Int) :
    kindOf { Entry.ofInstruction address i line with word := word } = 0 :=
  kindOf_of_not_data (Entry.name_ne_dataMnemonic i.opcode)

/-- **An accepted entry keeps its four words**, and it can be written into memory. -/
theorem words_of_entryOf {address line kind : Nat} {word : Int}
    (h : entryOf address word line kind = .ok e) :
    e.Loadable ∧ e.address = address ∧ e.word = word ∧ e.line = line ∧ kindOf e = kind := by
  unfold entryOf at h
  split at h
  · cases h
  · next room =>
    split at h
    · cases h
    · next bound =>
      have loadable : address < memorySize ∧ InWordRange word := ⟨not_not.1 room, not_not.1 bound⟩
      split at h
      · next data =>
        cases h
        exact ⟨loadable, rfl, rfl, rfl, (kindOf_ofData address word line).trans data.symm⟩
      · split at h
        · next instruction =>
          cases decoded : Instruction.decode? word with
          | none =>
            rw [decoded] at h
            cases h
          | some i =>
            rw [decoded] at h
            cases h
            have hkind := kindOf_ofInstruction address i line word
            exact ⟨loadable, rfl, rfl, rfl, hkind.trans instruction.symm⟩
        · cases h

/-- The eight bytes of an accepted entry are the ones that it is written as. -/
theorem entryBytes_of_entryOf {a0 a1 w0 w1 l0 l1 k0 k1 : UInt8}
    (h : entryOf (Bytes.ofHalf a0 a1) (Bytes.signed (Bytes.ofHalf w0 w1)) (Bytes.ofHalf l0 l1)
      (Bytes.ofHalf k0 k1) = .ok e) :
    entryBytes e = [a0, a1, w0, w1, l0, l1, k0, k1] ∧ e.Loadable ∧
      e.line < Bytes.halfModulus := by
  obtain ⟨loadable, haddress, hword, hline, hkind⟩ := words_of_entryOf h
  have hunsigned : Bytes.unsigned e.word = Bytes.ofHalf w0 w1 := by
    rw [hword, Bytes.unsigned_signed (Bytes.ofHalf_lt w0 w1)]
  refine ⟨?_, loadable, ?_⟩
  · unfold entryBytes
    rw [haddress, hunsigned, hline, hkind]
    simp only [Bytes.half_ofHalf, List.cons_append, List.nil_append]
  · rw [hline]
    exact Bytes.ofHalf_lt l0 l1

/-! ### All entries -/

/-- **Entries that were read are written as the bytes that they were read from.** The induction is on
the number of entries that are still to be read; `before` holds the ones already read. -/
theorem bytes_of_readEntries {count : Nat} {before : List Entry}
    (h : readEntries count before bytes = .ok (p, rest)) :
    ∃ entries : List Entry, p.entries = before.reverse ++ entries ∧ entries.length = count ∧
      bytes = entries.flatMap entryBytes ++ rest ∧
      ∀ e ∈ entries, e.Loadable ∧ e.line < Bytes.halfModulus := by
  fun_induction readEntries count before bytes with
  | case1 before bytes =>
    cases h
    exact ⟨[], (List.append_nil _).symm, rfl, rfl, nofun⟩
  | case2 before count a0 a1 w0 w1 l0 l1 k0 k1 body e accepted ih =>
    obtain ⟨entries, hentries, hlength, hbody, hall⟩ := ih h
    obtain ⟨hbytes, hentry⟩ := entryBytes_of_entryOf accepted
    refine ⟨e :: entries, ?_, ?_, ?_, ?_⟩
    · rw [hentries, List.reverse_cons, List.append_assoc, List.singleton_append]
    · rw [List.length_cons, hlength]
    · rw [List.flatMap_cons, List.append_assoc, hbytes, ← hbody]
      rfl
    · rintro d member
      rcases List.mem_cons.1 member with rfl | member
      · exact hentry
      · exact hall d member
  | case3 => cases h
  | case4 => cases h

/-- A file that is read has the header of its program, and its entries follow. -/
theorem bytes_of_read (h : read bytes = .ok (p, rest)) :
    p.size < Bytes.halfModulus ∧
      bytes = Bytes.half magic ++ Bytes.half p.size ++ p.entries.flatMap entryBytes ++ rest ∧
      ∀ e ∈ p.entries, e.Loadable ∧ e.line < Bytes.halfModulus := by
  unfold read at h
  split at h
  · next m0 m1 body =>
    split at h
    · next hmagic =>
      split at h
      · next c0 c1 body =>
        obtain ⟨entries, hentries, hlength, hbody, hall⟩ := bytes_of_readEntries h
        rw [List.reverse_nil, List.nil_append] at hentries
        have hsize : p.size = Bytes.ofHalf c0 c1 := by
          rw [Program.size, hentries, hlength]
        refine ⟨hsize ▸ Bytes.ofHalf_lt c0 c1, ?_, hentries ▸ hall⟩
        rw [hsize, ← hmagic, Bytes.half_ofHalf, Bytes.half_ofHalf, hbody, hentries]
        simp only [List.cons_append, List.nil_append]
      · cases h
    · cases h
  · cases h

/-! ### Whole files -/

/-- What is read can be written. -/
theorem written_of_read (h : read bytes = .ok (p, rest)) : (write p).failure = none := by
  obtain ⟨hsize, -, hall⟩ := bytes_of_read h
  refine failure_write_eq_none_iff.2 ⟨Nat.lt_succ_iff.1 hsize, fun e member => ?_⟩
  exact Nat.lt_succ_iff.1 (hall e member).2

/-- Writing what was read gives back the bytes that were consumed. -/
theorem eq_write_append_of_read (h : read bytes = .ok (p, rest)) :
    bytes = (write p).bytes ++ rest := by
  obtain ⟨-, hbytes, -⟩ := bytes_of_read h
  rw [bytes_write (written_of_read h)]
  exact hbytes

/-- **Only written files are read.** If bytes are read as a program and some bytes that follow it, then
every entry of the program has a cell and a word, the program can be written, and the bytes are the
written program and what follows it. So other bytes with the same ones following, or with none, are
read as another program. -/
theorem read_only_written (h : read bytes = .ok (p, rest)) :
    (∀ e ∈ p.entries, e.address < 100 ∧ -999 ≤ e.word ∧ e.word ≤ 999) ∧
      (write p).failure = none ∧ bytes = (write p).bytes ++ rest ∧
      ∀ other q, read other = .ok (q, rest) → other ≠ bytes → q ≠ p := by
  obtain ⟨-, -, hall⟩ := bytes_of_read h
  refine ⟨fun e member => (hall e member).1, written_of_read h, eq_write_append_of_read h, ?_⟩
  rintro other q hother different rfl
  have hsame : other = bytes := by
    rw [eq_write_append_of_read hother, ← eq_write_append_of_read h]
  exact different hsame

/-- A file of two entries, `LOAD 10` stored as `-510` and the plain word 902, with one byte behind
them. -/
def followed : List UInt8 :=
  [1, 2, 2, 0, 3, 0, 2, 254, 7, 0, 0, 0, 99, 0, 134, 3, 255, 255, 1, 0, 42]

/-- What it is read as. -/
def beforeFollowing : Program := ⟨[⟨3, -510, 7, "LOAD", 10⟩, .ofData 99 902 65535]⟩

/-- The last byte is left over, and the others are those that writing the program makes. -/
theorem read_followed_only_written :
    read followed = .ok (beforeFollowing, [42]) ∧ (write beforeFollowing).failure = none ∧
      followed = (write beforeFollowing).bytes ++ [42] := by
  have hread : read followed = .ok (beforeFollowing, [42]) := by decide +kernel
  obtain ⟨-, written, hbytes, -⟩ := read_only_written hread
  exact ⟨hread, written, hbytes⟩

end Image
end DecimalMachine
