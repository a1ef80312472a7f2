/-
# What is left out of a listing, block by block

A block of a listing is a run of filler rows that cannot be extended: the row in front of it and the row behind
it are no filler, or do not exist. A position is left out if it lies strictly inside a block of more than
eight rows, and `elide` keeps the rows at all other positions (`elide_eq_kept`).

* A row that is no filler parts a listing: no block reaches over it, so that the positions on either side
  are left out as if the other side did not exist (`kept_append_cons`).
* Rows that are all filler are one block, and of them is kept what `shorten` shows (`kept_of_isFiller`).

The pass over the rows carries the filler that it has not shown yet, and what it returns is what is kept of
this filler with the rest of the rows behind it (`elideFrom_eq_kept`).
-/

import DecimalMachine.Listing
import Mathlib.Tactic.ByContra

namespace DecimalMachine
namespace Listing

/-! ### Blocks -/

/-- Whether a row stands at a position and is filler. -/
def fillerAt (rows : List Row) (k : Nat) : Bool := rows[k]?.any Row.isFiller

/-- The positions from `first` to `last` hold filler, and their neighbours do not. -/
structure IsBlock (rows : List Row) (first last : Nat) : Prop where
  first_le_last : first ≤ last
  filled : ∀ k ≤ last, first ≤ k → fillerAt rows k = true
  begins : ∀ k < first, k + 1 = first → fillerAt rows k = false
  ends : fillerAt rows (last + 1) = false

instance (rows : List Row) (first last : Nat) : Decidable (IsBlock rows first last) :=
  decidable_of_iff
    (first ≤ last ∧ (∀ k ≤ last, first ≤ k → fillerAt rows k = true) ∧
      (∀ k < first, k + 1 = first → fillerAt rows k = false) ∧ fillerAt rows (last + 1) = false)
    ⟨fun ⟨ordered, filled, begins, ends⟩ => ⟨ordered, filled, begins, ends⟩,
      fun ⟨ordered, filled, begins, ends⟩ => ⟨ordered, filled, begins, ends⟩⟩

/-- A position strictly between the ends of a block of more than eight rows. -/
def LeftOut (rows : List Row) (k : Nat) : Prop :=
  ∃ first < k, ∃ last < rows.length, k < last ∧ 8 < last + 1 - first ∧ IsBlock rows first last

instance (rows : List Row) (k : Nat) : Decidable (LeftOut rows k) :=
  inferInstanceAs (Decidable (∃ first < k, ∃ last < rows.length,
    k < last ∧ 8 < last + 1 - first ∧ IsBlock rows first last))

/-- The rows whose positions are not left out. -/
def kept (rows : List Row) : List Row :=
  (rows.zipIdx.filter fun (_, k) => ¬ LeftOut rows k).map Prod.fst

/-- At a position is filler exactly if a row with a zero and without a source line stands there. -/
theorem fillerAt_iff {rows : List Row} {k : Nat} :
    fillerAt rows k = true ↔ ∃ r, rows[k]? = some r ∧ r.word = 0 ∧ r.line = none := by
  rw [fillerAt, Option.any_eq_true]
  simp only [Row.isFiller_iff]

/-- Filler stands among the rows. -/
theorem lt_length_of_fillerAt {rows : List Row} {k : Nat} (h : fillerAt rows k = true) :
    k < rows.length := by
  obtain ⟨r, found, -⟩ := fillerAt_iff.1 h
  exact (List.getElem?_eq_some_iff.1 found).1

/-- Among rows that are all filler, every position is. -/
theorem fillerAt_of_isFiller {run : List Row} (hrun : ∀ r ∈ run, r.isFiller = true) {k : Nat} :
    fillerAt run k = true ↔ k < run.length := by
  refine ⟨lt_length_of_fillerAt, fun inside => ?_⟩
  rw [fillerAt, List.getElem?_eq_getElem inside]
  exact hrun _ (List.getElem_mem inside)

/-- Filler that agrees up to a position behind a block has the block in common. -/
theorem IsBlock.of_agree {rows others : List Row} {first last : Nat} (block : IsBlock rows first last)
    (agree : ∀ k ≤ last + 1, fillerAt rows k = fillerAt others k) : IsBlock others first last where
  first_le_last := block.first_le_last
  filled k hk inside := (agree k (Nat.le_succ_of_le hk)).symm.trans (block.filled k hk inside)
  begins k hk next := by
    have ordered := block.first_le_last
    exact (agree k (by omega)).symm.trans (block.begins k hk next)
  ends := (agree _ (Nat.le_refl _)).symm.trans block.ends

/-! ### A row that is no filler -/

section Parting

variable {front rest : List Row} {r : Row} {first last k : Nat}

/-- Behind a row, positions are filled as if nothing came before. -/
theorem fillerAt_rest (k : Nat) :
    fillerAt (front ++ r :: rest) (k + (front.length + 1)) = fillerAt rest k := by
  unfold fillerAt
  rw [List.getElem?_append_right (by omega), show k + (front.length + 1) - front.length = k + 1 by omega,
    List.getElem?_cons_succ]

variable (solid : r.isFiller = false)

include solid

/-- In front of the row, and at it, positions are filled as if nothing followed. -/
theorem fillerAt_front (h : k ≤ front.length) : fillerAt (front ++ r :: rest) k = fillerAt front k := by
  unfold fillerAt
  rcases Nat.lt_or_eq_of_le h with inside | rfl
  · rw [List.getElem?_append_left inside]
  · rw [List.getElem?_append_right (Nat.le_refl _), Nat.sub_self, List.getElem?_cons_zero,
      List.getElem?_eq_none (Nat.le_refl _)]
    exact solid

/-- At the parting row is no filler. -/
theorem fillerAt_parting : fillerAt (front ++ r :: rest) front.length = false := by
  rw [fillerAt_front solid (Nat.le_refl _), Bool.eq_false_iff]
  exact fun filled => Nat.lt_irrefl _ (lt_length_of_fillerAt filled)

/-- No block reaches over the row. -/
theorem IsBlock.beside (block : IsBlock (front ++ r :: rest) first last) :
    last < front.length ∨ front.length < first := by
  by_contra across
  have filled := block.filled front.length (by omega) (by omega)
  rw [fillerAt_parting solid] at filled
  cases filled

/-- The blocks behind the row are those of the rest, moved on. -/
theorem isBlock_rest :
    IsBlock (front ++ r :: rest) (first + (front.length + 1)) (last + (front.length + 1)) ↔
      IsBlock rest first last := by
  have agree := @fillerAt_rest front rest r
  constructor
  · rintro ⟨ordered, filled, begins, ends⟩
    refine ⟨by omega, fun k hk inside => ?_, fun k hk next => ?_, ?_⟩
    · rw [← agree]
      exact filled _ (by omega) (by omega)
    · rw [← agree]
      exact begins _ (by omega) (by omega)
    · rw [← agree, Nat.add_right_comm]
      exact ends
  · rintro ⟨ordered, filled, begins, ends⟩
    refine ⟨by omega, fun k hk inside => ?_, fun k hk next => ?_, ?_⟩
    · obtain ⟨j, rfl⟩ := Nat.exists_eq_add_of_le' (Nat.le_trans (Nat.le_add_left _ _) inside)
      rw [agree]
      exact filled j (by omega) (by omega)
    · rcases Nat.lt_or_ge front.length k with behind | atRow
      · obtain ⟨j, rfl⟩ := Nat.exists_eq_add_of_le' behind
        rw [agree]
        exact begins j (by omega) (by omega)
      · obtain rfl : k = front.length := by omega
        exact fillerAt_parting solid
    · rw [Nat.add_right_comm, agree]
      exact ends

/-- In front of the parting row the rest makes no difference. -/
theorem leftOut_front (h : k < front.length) : LeftOut (front ++ r :: rest) k ↔ LeftOut front k := by
  constructor
  · rintro ⟨first, hfirst, last, -, hlast, long, block⟩
    have inside : last < front.length := by
      have beside := block.beside solid
      omega
    exact ⟨first, hfirst, last, inside, hlast, long,
      block.of_agree fun j hj => fillerAt_front solid (by omega)⟩
  · rintro ⟨first, hfirst, last, inside, hlast, long, block⟩
    have bound : last < (front ++ r :: rest).length := by
      rw [List.length_append]
      omega
    exact ⟨first, hfirst, last, bound, hlast, long,
      block.of_agree fun j hj => (fillerAt_front solid (by omega)).symm⟩

/-- The parting row stays. -/
theorem not_leftOut_parting : ¬ LeftOut (front ++ r :: rest) front.length := by
  rintro ⟨first, hfirst, last, -, hlast, -, block⟩
  have beside := block.beside solid
  omega

/-- Behind the parting row the front makes no difference. -/
theorem leftOut_rest : LeftOut (front ++ r :: rest) (k + (front.length + 1)) ↔ LeftOut rest k := by
  have length : (front ++ r :: rest).length = rest.length + (front.length + 1) := by
    rw [List.length_append, List.length_cons]
    omega
  constructor
  · rintro ⟨first, hfirst, last, inside, hlast, long, block⟩
    have beside := block.beside solid
    obtain ⟨first, rfl⟩ := Nat.exists_eq_add_of_le' (show front.length + 1 ≤ first by omega)
    obtain ⟨last, rfl⟩ := Nat.exists_eq_add_of_le' (show front.length + 1 ≤ last by omega)
    exact ⟨first, by omega, last, by omega, by omega, by omega, (isBlock_rest solid).1 block⟩
  · rintro ⟨first, hfirst, last, inside, hlast, long, block⟩
    exact ⟨first + (front.length + 1), by omega, last + (front.length + 1), by omega, by omega, by omega,
      (isBlock_rest solid).2 block⟩

/-- **A row that is no filler is kept, and parts what is kept on its sides.** -/
theorem kept_append_cons : kept (front ++ r :: rest) = kept front ++ r :: kept rest := by
  unfold kept
  have before : (front.zipIdx.filter fun (_, k) => ¬ LeftOut (front ++ r :: rest) k) =
      front.zipIdx.filter fun (_, k) => ¬ LeftOut front k := by
    refine List.filter_congr fun (x, k) member => ?_
    have inside := List.snd_lt_of_mem_zipIdx member
    exact decide_eq_decide.2 (not_congr (leftOut_front solid (by omega)))
  have behind : ((rest.zipIdx (front.length + 1)).filter fun (_, k) => ¬ LeftOut (front ++ r :: rest) k) =
      (rest.zipIdx.filter fun (_, k) => ¬ LeftOut rest k).map (Prod.map id (· + (front.length + 1))) := by
    rw [← List.map_snd_add_zipIdx_eq_zipIdx (n := front.length + 1) (k := 0), List.filter_map]
    congr 1
    exact List.filter_congr fun (x, k) _ => decide_eq_decide.2 (not_congr (leftOut_rest solid))
  rw [List.zipIdx_append, Nat.zero_add, List.zipIdx_cons, List.filter_append, before,
    List.filter_cons_of_pos (by simpa using not_leftOut_parting solid), behind, List.map_append,
    List.map_cons, List.map_map]
  rfl

end Parting

/-! ### Rows that are all filler -/

/-- A run is shown as it is, or it has more than two rows and is shown by its ends. -/
theorem shorten_cases (run : List Row) :
    (run.length ≤ 8 ∧ shorten run = run) ∨
      ∃ first inner last, run = first :: (inner ++ [last]) ∧ 7 ≤ inner.length ∧
        shorten run = [first, last] := by
  unfold shorten longestRun
  by_cases short : run.length ≤ 8
  · exact .inl ⟨short, if_pos short⟩
  · rw [if_neg short]
    obtain _ | ⟨first, tail⟩ := run
    · exact absurd (Nat.zero_le 8) short
    obtain rfl | ⟨inner, last, rfl⟩ := tail.eq_nil_or_concat
    · exact absurd (Nat.le_add_left 1 7) short
    rw [List.concat_eq_append] at short ⊢
    rw [List.length_cons, List.length_append, List.length_singleton] at short
    refine .inr ⟨first, inner, last, rfl, by omega, ?_⟩
    rw [← List.cons_append, List.getLast?_concat]
    rfl

/-- What is shown of filler is filler. -/
theorem isFiller_of_mem_shorten {run : List Row} (hrun : ∀ r ∈ run, r.isFiller = true) :
    ∀ r ∈ shorten run, r.isFiller = true := by
  rcases shorten_cases run with ⟨-, same⟩ | ⟨first, inner, last, rfl, -, ends⟩
  · rwa [same]
  · rw [ends, List.forall_mem_cons, List.forall_mem_singleton]
    exact ⟨hrun first List.mem_cons_self, hrun last (by simp)⟩

/-- What is shown of a run is short. -/
theorem shorten_shorten (run : List Row) : shorten (shorten run) = shorten run := by
  rcases shorten_cases run with ⟨-, same⟩ | ⟨first, inner, last, rfl, -, ends⟩
  · rw [same, same]
  · rw [ends]
    rfl

section Filler

variable {run : List Row} (hrun : ∀ r ∈ run, r.isFiller = true)

include hrun

/-- Rows of filler are a block, and have no other. -/
theorem isBlock_iff_of_isFiller {first last : Nat} :
    IsBlock run first last ↔ first = 0 ∧ last + 1 = run.length := by
  have filled (k : Nat) : fillerAt run k = true ↔ k < run.length := fillerAt_of_isFiller hrun
  have bare (k : Nat) : fillerAt run k = false ↔ run.length ≤ k := by
    rw [← Bool.not_eq_true, filled, Nat.not_lt]
  constructor
  · intro block
    have inside := (filled _).1 (block.filled last (Nat.le_refl _) block.first_le_last)
    have outside := (bare _).1 block.ends
    refine ⟨?_, by omega⟩
    by_contra later
    have before := (bare _).1 (block.begins (first - 1) (by omega) (by omega))
    have ordered := block.first_le_last
    omega
  · rintro ⟨rfl, whole⟩
    exact ⟨Nat.zero_le _, fun k hk _ => (filled k).2 (by omega), fun k hk => absurd hk (Nat.not_lt_zero k),
      (bare _).2 (by omega)⟩

/-- Of filler alone all but the ends are left out, if it is more than eight rows. -/
theorem leftOut_iff_of_isFiller {k : Nat} :
    LeftOut run k ↔ 8 < run.length ∧ 0 < k ∧ k + 1 < run.length := by
  constructor
  · rintro ⟨first, hfirst, last, -, hlast, long, block⟩
    obtain ⟨rfl, whole⟩ := (isBlock_iff_of_isFiller hrun).1 block
    omega
  · rintro ⟨long, hfirst, hlast⟩
    exact ⟨0, hfirst, run.length - 1, by omega, by omega, by omega,
      (isBlock_iff_of_isFiller hrun).2 ⟨rfl, by omega⟩⟩

/-- **Of filler is kept what is shown of it**: everything, or the two ends. -/
theorem kept_of_isFiller : kept run = shorten run := by
  have select : (run.zipIdx.filter fun (_, k) => ¬ LeftOut run k) =
      run.zipIdx.filter fun (_, k) => ¬ (8 < run.length ∧ 0 < k ∧ k + 1 < run.length) :=
    List.filter_congr fun _ _ => decide_eq_decide.2 (not_congr (leftOut_iff_of_isFiller hrun))
  unfold kept
  rw [select]
  rcases shorten_cases run with ⟨short, same⟩ | ⟨first, inner, last, rfl, long, ends⟩
  · rw [same, List.filter_eq_self.2, List.zipIdx_map_fst]
    exact fun _ _ => decide_eq_true fun ⟨long, _⟩ => Nat.not_lt.2 short long
  · have length : (first :: (inner ++ [last])).length = inner.length + 2 := by simp
    have inside : ((inner.zipIdx 1).filter fun (_, k) =>
        ¬ (8 < inner.length + 2 ∧ 0 < k ∧ k + 1 < inner.length + 2)) = [] := by
      refine List.filter_eq_nil_iff.2 fun (x, k) member => ?_
      obtain ⟨low, high, -⟩ := List.mem_zipIdx member
      simp only [decide_not, Bool.not_eq_true', decide_eq_false_iff_not, not_not]
      omega
    rw [length, List.zipIdx_cons, List.zipIdx_append, List.filter_cons_of_pos (by simp),
      List.filter_append, inside, ends]
    simp [Nat.add_comm]

end Filler

/-! ### The pass over the rows -/

/-- **What the pass returns is kept of the filler that it carries and of the rows behind it.** -/
theorem elideFrom_eq_kept {run : List Row} (rows : List Row) (hrun : ∀ r ∈ run.reverse, r.isFiller = true) :
    elideFrom run rows = kept (run.reverse ++ rows) := by
  induction rows generalizing run with
  | nil => rw [elideFrom, List.append_nil, kept_of_isFiller hrun]
  | cons r rest ih =>
    cases filled : r.isFiller with
    | true =>
      have carried : ∀ s ∈ (r :: run).reverse, s.isFiller = true := by
        rw [List.reverse_cons, List.forall_mem_append, List.forall_mem_singleton]
        exact ⟨hrun, filled⟩
      rw [elideFrom, if_pos filled, ih carried, List.reverse_cons, List.append_assoc, List.singleton_append]
    | false =>
      have rest_kept : elideFrom [] rest = kept rest := ih (List.forall_mem_nil _)
      rw [elideFrom, if_neg (Bool.eq_false_iff.1 filled), kept_append_cons filled, kept_of_isFiller hrun,
        rest_kept]

/-- **Elision keeps what is not strictly inside a long block.** -/
theorem elide_eq_kept (rows : List Row) : elide rows = kept rows :=
  elideFrom_eq_kept rows (List.forall_mem_nil _)

/-- What the pass returns is left as it is by another. -/
theorem elide_elideFrom {run : List Row} (rows : List Row) (hrun : ∀ r ∈ run.reverse, r.isFiller = true) :
    elide (elideFrom run rows) = elideFrom run rows := by
  have again {run : List Row} (hrun : ∀ r ∈ run, r.isFiller = true) : kept (shorten run) = shorten run := by
    rw [kept_of_isFiller (isFiller_of_mem_shorten hrun), shorten_shorten]
  induction rows generalizing run with
  | nil => rw [elideFrom, elide_eq_kept, again hrun]
  | cons r rest ih =>
    cases filled : r.isFiller with
    | true =>
      rw [elideFrom, if_pos filled]
      refine ih ?_
      rw [List.reverse_cons, List.forall_mem_append, List.forall_mem_singleton]
      exact ⟨hrun, filled⟩
    | false =>
      have rest_again : elide (elideFrom [] rest) = elideFrom [] rest := ih (List.forall_mem_nil _)
      rw [elide_eq_kept] at rest_again ⊢
      rw [elideFrom, if_neg (Bool.eq_false_iff.1 filled), kept_append_cons filled, again hrun, rest_again]

/-- **A listing keeps its rows except those strictly inside a block of more than eight**, in their order
and unchanged, and once this is done there is nothing to leave out. -/
theorem elide_keeps (rows : List Row) : elide rows = kept rows ∧ elide (elide rows) = elide rows :=
  ⟨elide_eq_kept rows, elide_elideFrom rows (List.forall_mem_nil _)⟩

/-- Eight rows of filler, a zero with a source line, and nine rows of filler. -/
def eightAndNine : List Row :=
  let bare (address : Nat) : Row := ⟨address, 0, none, "HALT"⟩
  (List.range 8).map bare ++ ⟨8, 0, some 3, "HALT"⟩ :: (List.range' 9 9).map bare

/-- The eight are kept, and of the nine only the ends; the zero with a source line is no filler. -/
theorem elide_keeps_eightAndNine :
    (elide eightAndNine).map Row.address = [0, 1, 2, 3, 4, 5, 6, 7, 8, 9, 17] ∧
      (kept eightAndNine).map Row.address = [0, 1, 2, 3, 4, 5, 6, 7, 8, 9, 17] ∧
      elide (elide eightAndNine) = elide eightAndNine := by
  obtain ⟨keeps, again⟩ := elide_keeps eightAndNine
  have shown : (kept eightAndNine).map Row.address = [0, 1, 2, 3, 4, 5, 6, 7, 8, 9, 17] := by decide
  exact ⟨keeps ▸ shown, shown, again⟩

end Listing
end DecimalMachine
