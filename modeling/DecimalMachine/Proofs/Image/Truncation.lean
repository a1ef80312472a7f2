/-
# Files that are cut short

A file announces its entries before it holds them. So a file that ends early, wherever it is cut and for
whatever reason, has fewer bytes than the entries that it announces take, and is not read as a program:

| file | what reading makes of it |
| --- | --- |
| a written file that is cut anywhere | an error |
| the same, if the whole file is readable | the end of the file |
| what was written before the writer gave up | an error |

Any other error than the end of the file depends on bytes that were already read, and stays whatever
follows them (`read_append_of_error`). A file that is readable as a whole therefore ends in no other
error when it is cut.
-/

import DecimalMachine.Proofs.Image.Canonical

namespace DecimalMachine

/-- Two numbers with the same two bytes are the same. -/
theorem Bytes.eq_of_half_eq {a b : Nat} (ha : a < halfModulus) (hb : b < halfModulus)
    (h : half a = half b) : a = b := by
  obtain ⟨low, high, hlow, hvalue⟩ := ofHalf_half ha
  obtain ⟨low', high', hlow', hvalue'⟩ := ofHalf_half hb
  rw [hlow, hlow'] at h
  cases h
  rw [← hvalue, hvalue']

namespace Image

variable {p : Program} {bytes q : List UInt8} {error : ReadError}

/-! ### Errors that no later byte mends -/

/-- An error other than the end of the file stays, whatever bytes are behind. -/
theorem readEntries_append_of_error {count : Nat} {before : List Entry}
    (h : readEntries count before bytes = .error error) (ne : error ≠ .endOfFile)
    (more : List UInt8) : readEntries count before (bytes ++ more) = .error error := by
  fun_induction readEntries count before bytes with
  | case1 => cases h
  | case2 before count a0 a1 w0 w1 l0 l1 k0 k1 rest e accepted ih =>
    simp only [List.cons_append]
    rw [readEntries, accepted]
    exact ih h
  | case3 before count a0 a1 w0 w1 l0 l1 k0 k1 rest found rejected =>
    simp only [List.cons_append]
    rw [readEntries, rejected]
    exact h
  | case4 =>
    cases h
    exact absurd rfl ne

/-- **An error that is not the end of the file stays** whatever bytes follow. -/
theorem read_append_of_error (h : read bytes = .error error) (ne : error ≠ .endOfFile)
    (more : List UInt8) : read (bytes ++ more) = .error error := by
  unfold read at h ⊢
  split at h
  · next m0 m1 rest =>
    simp only [List.cons_append]
    split at h
    · next hmagic =>
      rw [if_pos hmagic]
      split at h
      · exact readEntries_append_of_error h ne more
      · cases h
        exact absurd rfl ne
    · next hmagic =>
      rw [if_neg hmagic]
      exact h
  · cases h
    exact absurd rfl ne

/-- What is cut off a readable file leaves nothing to object to but its end. -/
theorem eq_endOfFile_of_isPrefix {result : Program × List UInt8} (whole : read bytes = .ok result)
    (cut : q <+: bytes) (h : read q = .error error) : error = .endOfFile := by
  by_contra ne
  obtain ⟨more, rfl⟩ := cut
  rw [read_append_of_error h ne more] at whole
  cases whole

/-! ### Fewer bytes than were announced -/

/-- **A file that is shorter than the entries it announces is not read.** -/
theorem exists_error_of_short {count : Nat} {body : List UInt8} (few : count < Bytes.halfModulus)
    (announced : q <+: Bytes.half magic ++ Bytes.half count ++ body)
    (short : q.length < 4 + 8 * count) : ∃ error, read q = .error error := by
  cases h : read q with
  | error error => exact ⟨error, rfl⟩
  | ok result =>
    obtain ⟨p, rest⟩ := result
    have written := written_of_read h
    have hq : q = (write p).bytes ++ rest := eq_write_append_of_read h
    have hlength : q.length = 4 + 8 * p.size + rest.length := by
      rw [hq, List.length_append, length_bytes_write written]
    have hcount : Bytes.half p.size = Bytes.half count := by
      obtain ⟨more, hmore⟩ := announced
      rw [hq, bytes_write written] at hmore
      simp only [List.append_assoc, List.append_cancel_left_eq] at hmore
      exact List.append_inj_left hmore rfl
    have hsize : p.size = count := Bytes.eq_of_half_eq (size_lt_of_written written) few hcount
    omega

/-- **A writer that gives up at a line** has announced more entries than it has written. -/
theorem bytes_write_of_failure (few : p.size < Bytes.halfModulus) (failed : (write p).failure ≠ none) :
    ∃ complete : List Entry, complete.length < p.size ∧
      (write p).bytes = Bytes.half magic ++ Bytes.half p.size ++ complete.flatMap entryBytes := by
  let small : Entry → Bool := fun e => decide (e.line < Bytes.halfModulus)
  have hwrite : write p =
      ⟨Bytes.half magic ++ Bytes.half p.size ++ (p.entries.takeWhile small).flatMap entryBytes,
        (p.entries.dropWhile small).head?.map fun e => .lineTooLarge e.line⟩ := if_pos few
  have hleft : p.entries.dropWhile small ≠ [] := by
    intro nothing
    rw [hwrite, nothing] at failed
    exact failed rfl
  have hsplit : (p.entries.takeWhile small).length + (p.entries.dropWhile small).length = p.size := by
    rw [← List.length_append, List.takeWhile_append_dropWhile, Program.size]
  have hpos := List.length_pos_iff.2 hleft
  exact ⟨p.entries.takeWhile small, by omega, by rw [hwrite]⟩

/-- What is written of a program that cannot be written is not read. -/
theorem exists_error_of_failure (failed : (write p).failure ≠ none) (cut : q <+: (write p).bytes) :
    ∃ error, read q = .error error := by
  by_cases few : p.size < Bytes.halfModulus
  · obtain ⟨complete, hfewer, hbytes⟩ := bytes_write_of_failure few failed
    have hlength : (write p).bytes.length = 4 + 8 * complete.length := by
      rw [hbytes, List.length_append, length_flatMap_entryBytes]
      rfl
    have hle := cut.length_le
    rw [hbytes] at cut
    exact exists_error_of_short few cut (by omega)
  · have nothing : (write p).bytes = [] := congrArg Written.bytes (if_neg few)
    rw [nothing, List.prefix_nil] at cut
    exact ⟨.endOfFile, by rw [cut]; rfl⟩

/-- **A file that is cut short is never taken for a program.** Whatever part of a written file is left, if
it is not the whole, reading it is an error, and if the whole is readable this error is the end of the
file. And if a program cannot be written, what is left of the file, or any part of it, is not readable. -/
theorem read_cut_short (p : Program) :
    ((write p).failure = none → ∀ q, q <+: (write p).bytes → q ≠ (write p).bytes →
      ∃ error, read q = .error error ∧
        ((∃ result, read (write p).bytes = .ok result) → error = .endOfFile)) ∧
      ((write p).failure ≠ none → ∀ q, q <+: (write p).bytes → ∃ error, read q = .error error) := by
  refine ⟨fun written q cut ne => ?_, fun failed q cut => exists_error_of_failure failed cut⟩
  have short : q.length < 4 + 8 * p.size := by
    have hlength := length_bytes_write written
    have hle := cut.length_le
    have hne : q.length ≠ (write p).bytes.length := fun same => ne (cut.eq_of_length same)
    omega
  have announced := cut
  rw [bytes_write written] at announced
  obtain ⟨error, herror⟩ := exists_error_of_short (size_lt_of_written written) announced short
  refine ⟨error, herror, ?_⟩
  rintro ⟨result, whole⟩
  exact eq_endOfFile_of_isPrefix whole cut herror

/-- A plain word, and another one from a line that is too large for a file. -/
def overlong : Program := ⟨[.ofData 3 5 7, .ofData 4 6 70000]⟩

/-- The file of four entries is cut in the middle of the third one, and the writer of the other program
leaves one entry where two are announced. -/
theorem read_cut_short_mixed :
    (write mixed).failure = none ∧ (write mixed).bytes.length = 36 ∧
      read ((write mixed).bytes.take 23) = .error .endOfFile ∧
      (write overlong).failure = some (.lineTooLarge 70000) ∧ (write overlong).bytes.length = 12 ∧
      ∃ error, read (write overlong).bytes = .error error := by
  have written : (write mixed).failure = none := by decide
  have failed : (write overlong).failure = some (.lineTooLarge 70000) := by decide
  have whole : ∃ result, read (write mixed).bytes = .ok result :=
    ⟨_, read_write_of_readable (by decide) written (by decide)⟩
  obtain ⟨error, herror, hend⟩ := (read_cut_short mixed).1 written ((write mixed).bytes.take 23)
    (List.take_prefix 23 _) (by decide)
  rw [hend whole] at herror
  refine ⟨written, length_bytes_write written, herror, failed, by decide, ?_⟩
  exact (read_cut_short overlong).2 (by rw [failed]; nofun) _ (List.prefix_refl _)

end Image
end DecimalMachine
