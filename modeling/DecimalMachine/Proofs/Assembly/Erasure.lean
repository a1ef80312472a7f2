/-
# Lines with errors do not disturb the others

An error is reported for a line, whether it arose when the line was read or when its statement was
placed. Such a line yields no entry, takes no address and leaves the load address alone, so that a text
in which it is empty is assembled into the same program, with the errors of the other lines.

`Text.eraseLines` empties chosen lines of a text and keeps the line feeds. `Text.Erased` says what
becomes of the lines, from there on a text is a list of lines:

| stage | what erasing does |
| --- | --- |
| statements, errors of reading | those of the chosen lines are left out |
| placements, if the chosen lines are refused | those of the chosen lines are left out |
| entries | nothing |
-/

import DecimalMachine.Assembly.Basic
import Mathlib.Data.Finset.Basic
import Mathlib.Data.List.Nodup

namespace DecimalMachine

namespace Text

/-- A text without what stands on chosen lines; `number` is the number of its first line. The line
feeds stay. -/
def eraseFrom (chosen : Finset ℕ) (number : ℕ) : List Char → List Char
  | [] => []
  | c :: rest =>
    if c = '\n' then c :: eraseFrom chosen (number + 1) rest
    else if number ∈ chosen then eraseFrom chosen number rest
    else c :: eraseFrom chosen number rest

/-- A text in which chosen lines are empty. Lines count from 1. -/
def eraseLines (chosen : Finset ℕ) (source : String) : String :=
  String.ofList (eraseFrom chosen 1 source.toList)

/-- The lines `after` are the lines `before`, of which the first has a given number, with the chosen
ones made empty. A last line that had no end is no line any more once it is empty. -/
inductive Erased (chosen : Finset ℕ) : ℕ → List (List Char) → List (List Char) → Prop
  | nil {number : ℕ} : Erased chosen number [] []
  | last {number : ℕ} {line : List Char} (h : number ∈ chosen) : Erased chosen number [line] []
  | erase {number : ℕ} {line : List Char} {before after : List (List Char)} (h : number ∈ chosen)
      (rest : Erased chosen (number + 1) before after) :
      Erased chosen number (line :: before) ([] :: after)
  | keep {number : ℕ} {line : List Char} {before after : List (List Char)} (h : number ∉ chosen)
      (rest : Erased chosen (number + 1) before after) :
      Erased chosen number (line :: before) (line :: after)

variable {chosen : Finset ℕ}

/-- The induction is on the text; `current` is what was read of the line that it begins within, and it
is forgotten if the line is chosen. -/
theorem erased_linesFrom (number : ℕ) (current text : List Char) :
    Erased chosen number (linesFrom current text)
      (linesFrom (if number ∈ chosen then [] else current) (eraseFrom chosen number text)) := by
  induction text generalizing number current with
  | nil =>
    cases current with
    | nil =>
      rw [ite_self]
      exact .nil
    | cons c current =>
      by_cases h : number ∈ chosen
      · rw [if_pos h]
        exact .last h
      · rw [if_neg h]
        exact .keep h .nil
  | cons c rest ih =>
    by_cases feed : c = '\n'
    · have hnext := ih (number + 1) []
      rw [ite_self] at hnext
      simp only [eraseFrom, if_pos feed, linesFrom]
      by_cases h : number ∈ chosen
      · rw [if_pos h]
        exact .erase h hnext
      · rw [if_neg h]
        exact .keep h hnext
    · have hnext := ih number (c :: current)
      simp only [eraseFrom, if_neg feed, linesFrom]
      by_cases h : number ∈ chosen
      · rw [if_pos h] at hnext ⊢
        rw [if_pos h]
        exact hnext
      · rw [if_neg h] at hnext ⊢
        rw [if_neg h, linesFrom, if_neg feed]
        exact hnext

/-- **Erasing makes the chosen lines empty** and leaves the others as they are. -/
theorem erased_lines (chosen : Finset ℕ) (text : List Char) :
    Erased chosen 1 (lines text) (lines (eraseFrom chosen 1 text)) := by
  have h : Erased chosen 1 (linesFrom [] text)
      (linesFrom (if 1 ∈ chosen then [] else []) (eraseFrom chosen 1 text)) :=
    erased_linesFrom 1 [] text
  rw [ite_self] at h
  exact h

end Text

namespace Assembly

variable {chosen : Finset ℕ}

/-! ### Things found on lines -/

section Found

variable {α β : Type} {f : Located α → Option β} {line : β → ℕ} {list : List (Located α)}
  (located : ∀ r ∈ list, ∀ b, f r = some b → line b = r.line)

include located in
/-- What is found on different lines keeps their numbers, in order. -/
theorem sublist_map_line : ((list.filterMap f).map line).Sublist (list.map Located.line) := by
  induction list with
  | nil => exact .slnil
  | cons r rest ih =>
    obtain ⟨hr, hrest⟩ := List.forall_mem_cons.1 located
    rw [List.filterMap_cons, List.map_cons]
    cases found : f r with
    | none => exact (ih hrest).cons _
    | some b =>
      rw [List.map_cons, hr b found]
      exact (ih hrest).cons_cons _

include located in
/-- It does not matter whether lines are picked before or after something is looked for. -/
theorem filterMap_filter_line (picked : ℕ → Prop) [DecidablePred picked] :
    (list.filter fun r => picked r.line).filterMap f =
      (list.filterMap f).filter fun b => picked (line b) := by
  rw [List.filterMap_filter, List.filter_filterMap]
  refine List.filterMap_congr fun r member => ?_
  cases found : f r with
  | none => exact ite_self none
  | some b =>
    have hline := located r member b found
    rw [Option.filter_some, hline]

end Found

/-- A statement has the line that it was read from. -/
theorem line_of_statement? {r : Reading} {s : Located Statement} (h : statement? r = some s) :
    s.line = r.line ∧ r.value = .ok (some s.value) := by
  unfold statement? at h
  split at h
  · next value =>
    cases h
    exact ⟨rfl, value⟩
  · cases h

/-- An error of reading has the line that could not be read. -/
theorem line_of_readError? {r : Reading} {e : Error} (h : readError? r = some e) :
    e.line = r.line ∧ r.value = .error e.cause := by
  unfold readError? at h
  split at h
  · next value =>
    cases h
    exact ⟨rfl, value⟩
  · cases h

/-- An error of placing has the line of a statement that was refused. -/
theorem line_of_placeError? {p : Located Placement} {e : Error} (h : placeError? p = some e) :
    e.line = p.line ∧ p.value = .refused := by
  obtain ⟨cause, hcause, rfl⟩ := Option.map_eq_some_iff.1 h
  refine ⟨rfl, ?_⟩
  cases value : p.value with
  | refused => rfl
  | moved | ignored | placed =>
    rw [value] at hcause
    cases hcause

/-! ### Reading -/

/-- The first line is read first, and has the first number. -/
theorem readLines_cons (number : ℕ) (line : List Char) (rest : List (List Char)) :
    readLines number (line :: rest) =
      ⟨number, Statement.ofLine line⟩ :: readLines (number + 1) rest := rfl

/-- Lines are numbered in order. -/
theorem map_line_readLines (number : ℕ) (lines : List (List Char)) :
    (readLines number lines).map Located.line = List.range' number lines.length := by
  induction lines generalizing number with
  | nil => rfl
  | cons line rest ih =>
    rw [readLines_cons, List.map_cons, ih, List.length_cons, List.range'_succ]

/-- **Erasing lines leaves out what was found on them.** It need not be said what is looked for, only
that it is not found on an empty line. -/
theorem filterMap_readLines_erased {β : Type} {f : Reading → Option β} {line : β → ℕ}
    (located : ∀ r b, f r = some b → line b = r.line) (empty : ∀ number, f ⟨number, .ok none⟩ = none)
    {number : ℕ} {before after : List (List Char)} (h : Text.Erased chosen number before after) :
    (readLines number after).filterMap f =
      ((readLines number before).filterMap f).filter fun b => line b ∉ chosen := by
  have gone : ∀ {number text b}, number ∈ chosen → f ⟨number, Statement.ofLine text⟩ = some b →
      ¬ line b ∉ chosen := by
    intro number text b member found absent
    rw [located _ _ found] at absent
    exact absent member
  induction h with
  | nil => rfl
  | @last number text member =>
    rw [readLines_cons, List.filterMap_cons]
    cases found : f ⟨number, Statement.ofLine text⟩ with
    | none => rfl
    | some b =>
      dsimp only
      rw [List.filter_cons_of_neg (by simpa using gone member found)]
      rfl
  | @erase number text before after member rest ih =>
    have blank : f ⟨number, Statement.ofLine []⟩ = none := empty number
    rw [readLines_cons, readLines_cons, List.filterMap_cons_none blank, ih, List.filterMap_cons]
    cases found : f ⟨number, Statement.ofLine text⟩ with
    | none => rfl
    | some b =>
      dsimp only
      rw [List.filter_cons_of_neg (by simpa using gone member found)]
  | @keep number text before after absent rest ih =>
    rw [readLines_cons, readLines_cons, List.filterMap_cons, List.filterMap_cons, ih]
    cases found : f ⟨number, Statement.ofLine text⟩ with
    | none => rfl
    | some b =>
      have stays : line b ∉ chosen := by
        rw [located _ _ found]
        exact absent
      dsimp only
      rw [List.filter_cons_of_pos (by simpa using stays)]

/-! ### Placing -/

/-- Placements have the lines of their statements. -/
theorem map_line_place (address : ℕ) (statements : List (Located Statement)) :
    (place address statements).map Located.line = statements.map Located.line := by
  induction statements generalizing address with
  | nil => rfl
  | cons s rest ih => rw [place, List.map_cons, List.map_cons, ih]

/-- Statements that find no room take no address from the others. -/
theorem place_filter (address : ℕ) {statements : List (Located Statement)}
    (h : ∀ p ∈ place address statements, p.line ∈ chosen → p.value = .refused) :
    place address (statements.filter fun s => s.line ∉ chosen) =
      (place address statements).filter fun p => p.line ∉ chosen := by
  induction statements generalizing address with
  | nil => rfl
  | cons s rest ih =>
    rw [place, List.forall_mem_cons] at h
    obtain ⟨hfirst, hrest⟩ := h
    rw [place]
    by_cases member : s.line ∈ chosen
    · have stays : (Placement.ofStatement address s).next address = address := by
        have refused : Placement.ofStatement address s = .refused := hfirst member
        rw [refused]
        rfl
      rw [stays] at hrest ⊢
      rw [List.filter_cons_of_neg (by simpa using member),
        List.filter_cons_of_neg (by simpa using member), ih address hrest]
    · rw [List.filter_cons_of_pos (by simpa using member),
        List.filter_cons_of_pos (by simpa using member), place, ih _ hrest]

/-! ### Reported lines -/

section Reported

variable {before after : List (List Char)}

/-- No two lines have one number. -/
theorem nodup_line_readLines (number : ℕ) (lines : List (List Char)) :
    ((readLines number lines).map Located.line).Nodup := by
  rw [map_line_readLines]
  exact List.nodup_range'

/-- No two readings are of one line. -/
theorem eq_of_mem_readLines {r s : Reading} (hr : r ∈ readLines 1 before)
    (hs : s ∈ readLines 1 before) (same : r.line = s.line) : r = s :=
  List.inj_on_of_nodup_map (nodup_line_readLines 1 before) hr hs same

/-- Placements have the lines of the statements that were read. -/
theorem map_line_placements :
    (ofLines before).placements.map Located.line =
      ((readLines 1 before).filterMap statement?).map Located.line :=
  map_line_place 0 _

/-- Statements are placed in the order of their lines. -/
theorem sublist_line_placements :
    ((ofLines before).placements.map Located.line).Sublist ((readLines 1 before).map Located.line) := by
  rw [map_line_placements]
  exact sublist_map_line fun r _ s found => (line_of_statement? found).1

/-- No two placements have one line. -/
theorem nodup_line_placements : ((ofLines before).placements.map Located.line).Nodup :=
  sublist_line_placements.nodup (nodup_line_readLines 1 before)

/-- No two placements are of one line. -/
theorem eq_of_mem_placements {p q : Located Placement} (hp : p ∈ (ofLines before).placements)
    (hq : q ∈ (ofLines before).placements) (same : p.line = q.line) : p = q :=
  List.inj_on_of_nodup_map nodup_line_placements hp hq same

/-- A placement is of a line that was read as a statement. -/
theorem exists_statement_of_placement {p : Located Placement}
    (hp : p ∈ (ofLines before).placements) :
    ∃ r ∈ readLines 1 before, r.line = p.line ∧ ∃ s, r.value = .ok (some s) := by
  have member : p.line ∈ (ofLines before).placements.map Located.line := List.mem_map_of_mem hp
  rw [map_line_placements] at member
  obtain ⟨s, hs, hline⟩ := List.mem_map.1 member
  obtain ⟨r, hr, found⟩ := List.mem_filterMap.1 hs
  obtain ⟨same, value⟩ := line_of_statement? found
  exact ⟨r, hr, same.symm.trans hline, s.value, value⟩

/-- **A statement on a line with an error found no room**, because a line that cannot be read has no
statement. -/
theorem refused_of_error {p : Located Placement} (hp : p ∈ (ofLines before).placements) {e : Error}
    (he : e ∈ (ofLines before).errors) (same : e.line = p.line) : p.value = .refused := by
  rcases List.mem_append.1 he with reading | placing
  · obtain ⟨r, hr, found⟩ := List.mem_filterMap.1 reading
    obtain ⟨hline, failed⟩ := line_of_readError? found
    obtain ⟨q, hq, hsame, s, read⟩ := exists_statement_of_placement hp
    have hrq : r = q := eq_of_mem_readLines hr hq (by rw [← hline, same, hsame])
    rw [hrq, read] at failed
    cases failed
  · obtain ⟨q, hq, found⟩ := List.mem_filterMap.1 placing
    obtain ⟨hline, refused⟩ := line_of_placeError? found
    have hpq : p = q := eq_of_mem_placements hp hq (by rw [← same, hline])
    rw [hpq]
    exact refused

variable (erased : Text.Erased chosen 1 before after)
  (reported : ∀ number ∈ chosen, ∃ e ∈ (ofLines before).errors, e.line = number)

include reported in
/-- A statement of a line that was made empty had been refused. -/
theorem refused_of_chosen {p : Located Placement} (hp : p ∈ (ofLines before).placements)
    (member : p.line ∈ chosen) : p.value = .refused := by
  obtain ⟨e, he, same⟩ := reported p.line member
  exact refused_of_error hp he same

include erased reported in
/-- **Erasing lines with errors leaves out their placements**, and changes none of the others. -/
theorem placements_erased :
    (ofLines after).placements =
      (ofLines before).placements.filter fun p => p.line ∉ chosen := by
  have hstatements : (readLines 1 after).filterMap statement? =
      ((readLines 1 before).filterMap statement?).filter fun s => s.line ∉ chosen :=
    filterMap_readLines_erased (fun r s found => (line_of_statement? found).1) (fun _ => rfl) erased
  have hrefused : ∀ p ∈ place 0 ((readLines 1 before).filterMap statement?),
      p.line ∈ chosen → p.value = .refused := fun p hp => refused_of_chosen reported hp
  calc (ofLines after).placements
      = place 0 (((readLines 1 before).filterMap statement?).filter fun s => s.line ∉ chosen) := by
        rw [← hstatements]
        rfl
    _ = (ofLines before).placements.filter fun p => p.line ∉ chosen := place_filter 0 hrefused

include erased reported in
/-- **The program stays the same.** -/
theorem program_erased : (ofLines after).program = (ofLines before).program := by
  unfold program
  rw [placements_erased erased reported, List.filterMap_filter]
  congr 1
  refine List.filterMap_congr fun p hp => ?_
  by_cases member : p.line ∈ chosen
  · have hnone : p.value.entry? = none := by
      rw [refused_of_chosen reported hp member]
      rfl
    rw [hnone, ite_self]
  · rw [if_pos (by simpa using member)]

include erased reported in
/-- **The errors of the other lines stay**, in their order. -/
theorem errors_erased :
    (ofLines after).errors = (ofLines before).errors.filter fun e => e.line ∉ chosen := by
  have hread : (ofLines after).readErrors =
      (ofLines before).readErrors.filter fun e => e.line ∉ chosen :=
    filterMap_readLines_erased (fun r e found => (line_of_readError? found).1) (fun _ => rfl) erased
  have hplace : (ofLines after).placeErrors =
      (ofLines before).placeErrors.filter fun e => e.line ∉ chosen := by
    unfold placeErrors
    rw [placements_erased erased reported]
    exact filterMap_filter_line (fun p _ e found => (line_of_placeError? found).1) (· ∉ chosen)
  rw [errors, errors, hread, hplace, List.filter_append]

end Reported
end Assembly

/-- **Bad lines do not disturb good ones.** If lines for which errors are reported are made empty, the
text is assembled into the same program, and its errors are those of the other lines, in the same
order. -/
theorem assemble_eraseLines {source : String} {chosen : Finset ℕ}
    (reported : ∀ number ∈ chosen, ∃ e ∈ (assemble source).errors, e.line = number) :
    (assemble (Text.eraseLines chosen source)).program = (assemble source).program ∧
      (assemble (Text.eraseLines chosen source)).errors =
        (assemble source).errors.filter fun e => e.line ∉ chosen := by
  have erased : Text.Erased chosen 1 (Text.lines source.toList)
      (Text.lines (Text.eraseLines chosen source).toList) := by
    rw [Text.eraseLines, String.toList_ofList]
    exact Text.erased_lines chosen source.toList
  exact ⟨Assembly.program_erased erased reported, Assembly.errors_erased erased reported⟩

/-- A text with errors of reading on lines 2 and 4, between an origin and words, and a word on line 6
for which there is no room. -/
def crowded : String := "*98\nLDA x\nDAT 7\nADD 1 2 // sum\nHLT\nDAT 3\n*5\nFOO\r\nOUT"

/-- Of the errors on lines 2, 4, 6 and 8, the second and the last stay. -/
theorem assemble_eraseLines_crowded :
    (assemble crowded).errors.map Assembly.Error.line = [2, 4, 8, 6] ∧
      (assemble crowded).program =
        ⟨[.ofData 98 7 3, ⟨99, 0, 5, "HALT", 0⟩, ⟨5, 902, 9, "OUT", 0⟩]⟩ ∧
      (assemble (Text.eraseLines {2, 6} crowded)).program = (assemble crowded).program ∧
      (assemble (Text.eraseLines {2, 6} crowded)).errors =
        [⟨4, .trailingToken "2"⟩, ⟨8, .unknownMnemonic "FOO"⟩] := by
  have reported : ∀ number ∈ ({2, 6} : Finset ℕ),
      ∃ e ∈ (assemble crowded).errors, e.line = number := by decide +kernel
  obtain ⟨hprogram, herrors⟩ := assemble_eraseLines reported
  refine ⟨by decide +kernel, by decide +kernel, hprogram, ?_⟩
  rw [herrors]
  decide +kernel

end DecimalMachine
