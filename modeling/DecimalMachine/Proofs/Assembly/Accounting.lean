/-
# Every line is accounted for

An assembly tells of a line in three places: the entries of its program, its errors, and the warnings in its
log. Each names the line by its number, a warning in the text of its message. What is told of a line is one
of these, and never two:

| the line | entries | errors | warnings |
| --- | --- | --- | --- |
| blank, or only a comment | none | none | none |
| an origin with an address | none | none | none |
| an origin with anything else | none | none | one |
| a statement that is placed | one | none | none |
| one that cannot be read, or finds no room | none | one | none |

The first rows are told apart by the text of the line alone, and the last two by what the assembly does with
it, which also decides which of the two lists of errors reports the line.

Route: a line has one reading, at most one statement and at most one placement, so that what is told of it
comes from these alone (`Assembly.told_eq`). Then the form that the grammar gives the line decides.
-/

import DecimalMachine.Proofs.Assembly.Erasure
import DecimalMachine.Proofs.Assembly.Grammar
import DecimalMachine.Proofs.Assembly.WellFormed

namespace DecimalMachine
namespace Assembly

open Text

/-! ### Lines -/

/-- A line of blanks, perhaps with a comment. -/
def IsBlankLine (line : List Char) : Prop := ∃ body, Uncommented line body ∧ Trimmed body []

/-- A line that is an origin with the given target. -/
def IsOriginLine (line target : List Char) : Prop :=
  ∃ body rest, Uncommented line body ∧ Trimmed body ('*' :: rest) ∧ Trimmed rest target

/-- A target that is the number of a cell. -/
def IsAddress (target : List Char) : Prop :=
  ∃ value, IsNumeral target value ∧ 0 ≤ value ∧ value ≤ 99

/-- A log record that warns of a line. -/
def WarnsOf (number : ℕ) (r : Record) : Prop :=
  r.level = .warn ∧ ("Line " ++ toString number ++ ":").toList <+: r.message.toList

instance (number : ℕ) (r : Record) : Decidable (WarnsOf number r) :=
  inferInstanceAs (Decidable (_ ∧ _))

/-- What an assembly tells of the line with a number: entries, errors and warnings. -/
def told (a : Assembly) (number : ℕ) : List Entry × List Error × List Record :=
  (a.program.entries.filter fun e => e.line = number, a.errors.filter fun e => e.line = number,
    a.log.filter fun r => WarnsOf number r)

/-- What can become of a line. -/
inductive Fate where
  | blank | origin | word | error
  deriving DecidableEq, Repr

/-- What became of a line: the line fits, and this and nothing else is told of it. -/
inductive Accounted (a : Assembly) (number : ℕ) (line : List Char) : Fate → Prop
  | blank (shape : IsBlankLine line) (told : a.told number = ([], [], [])) :
      Accounted a number line .blank
  | moved {target : List Char} (shape : IsOriginLine line target) (address : IsAddress target)
      (told : a.told number = ([], [], [])) : Accounted a number line .origin
  | ignored {target : List Char} {warning : Record} (shape : IsOriginLine line target)
      (address : ¬ IsAddress target) (told : a.told number = ([], [], [warning])) :
      Accounted a number line .origin
  | word {e : Entry} (told : a.told number = ([e], [], [])) : Accounted a number line .word
  | error {e : Error} (told : a.told number = ([], [e], [])) : Accounted a number line .error

/-- A blank line is no origin. -/
theorem IsBlankLine.not_isOriginLine {line target : List Char} (h : IsBlankLine line) :
    ¬ IsOriginLine line target := by
  rintro ⟨body, rest, kept, trimmed, -⟩
  obtain ⟨body', kept', trimmed'⟩ := h
  rw [uncommented_iff] at kept kept'
  rw [trimmed_iff] at trimmed trimmed'
  rw [kept', ← kept, ← trimmed] at trimmed'
  cases trimmed'

/-- **A line has one fate at most.** -/
theorem Accounted.unique {a : Assembly} {number : ℕ} {line : List Char} {fate other : Fate}
    (h : a.Accounted number line fate) (k : a.Accounted number line other) : fate = other := by
  cases h with
  | blank shape told =>
    cases k with
    | blank => rfl
    | moved shape' | ignored shape' => exact absurd shape' shape.not_isOriginLine
    | word told' | error told' => nomatch told.symm.trans told'
  | moved shape _ told | ignored shape _ told =>
    cases k with
    | blank shape' => exact absurd shape shape'.not_isOriginLine
    | moved | ignored => rfl
    | word told' | error told' => nomatch told.symm.trans told'
  | word told =>
    cases k with
    | word => rfl
    | blank _ told' | moved _ _ told' | ignored _ _ told' | error told' =>
      nomatch told.symm.trans told'
  | error told =>
    cases k with
    | error => rfl
    | blank _ told' | moved _ _ told' | ignored _ _ told' | word told' =>
      nomatch told.symm.trans told'

/-! ### What is told of a line -/

/-- Of things on different lines, one is on the line of each. -/
theorem filter_line_of_nodup {α : Type} {list : List (Located α)}
    (nodup : (list.map Located.line).Nodup) {r : Located α} (member : r ∈ list) :
    (list.filter fun s => s.line = r.line) = [r] := by
  induction list with
  | nil => cases member
  | cons s rest ih =>
    rw [List.map_cons, List.nodup_cons] at nodup
    obtain ⟨apart, nodup⟩ := nodup
    rcases List.mem_cons.1 member with rfl | later
    · have none : (rest.filter fun t => t.line = r.line) = [] := by
        refine List.filter_eq_nil_iff.2 fun t ht same => apart ?_
        rw [← of_decide_eq_true same]
        exact List.mem_map_of_mem ht
      rw [List.filter_cons_of_pos (by simp), none]
    · have other : s.line ≠ r.line := by
        rintro same
        rw [same] at apart
        exact apart (List.mem_map_of_mem later)
      rw [List.filter_cons_of_neg (by simpa using other), ih nodup later]

/-- A text in front of the first colon is told by any text with the colon. -/
theorem eq_of_colon_prefix {a b rest : List Char} (ha : ∀ c ∈ a, c ≠ ':') (hb : ∀ c ∈ b, c ≠ ':')
    (h : a ++ [':'] <+: b ++ ':' :: rest) : a = b := by
  obtain ⟨tail, same⟩ := h
  have cut : (a ++ [':'] ++ tail).takeWhile (· ≠ ':') = (b ++ ':' :: rest).takeWhile (· ≠ ':') := by
    rw [same]
  rw [List.append_assoc, List.takeWhile_append_of_pos fun c hc => decide_eq_true (ha c hc),
    List.takeWhile_append_of_pos fun c hc => decide_eq_true (hb c hc)] at cut
  simpa using cut

/-- The digits of a number have no colon. -/
theorem ne_colon_of_mem_toString {n : ℕ} : ∀ c ∈ (toString n).toList, c ≠ ':' := by
  intro c member
  have digit : c.isDigit = true := (isDigits_toDigits n).digits c (by rwa [← Nat.toList_repr])
  rintro rfl
  exact absurd digit (by decide)

/-- The number in front of a message is that of one line. -/
theorem line_prefix_iff {number line : ℕ} (rest : List Char) :
    ("Line " ++ toString number ++ ":").toList <+:
        "Line ".toList ++ ((toString line).toList ++ ':' :: rest) ↔ line = number := by
  rw [String.toList_append, String.toList_append, List.append_assoc, List.prefix_append_right_inj]
  constructor
  · intro h
    have same := eq_of_colon_prefix ne_colon_of_mem_toString ne_colon_of_mem_toString h
    have digits : Nat.toDigits 10 number = Nat.toDigits 10 line := by
      rw [← Nat.toList_repr, ← Nat.toList_repr]
      exact same
    have value := congrArg (Nat.ofDigitChars 10 · 0) digits
    rw [Nat.ofDigitChars_ten_toDigits, Nat.ofDigitChars_ten_toDigits] at value
    exact value.symm
  · rintro rfl
    exact ⟨rest, by simp⟩

/-- An origin without effect warns of its own line, and no other placement warns of any. -/
theorem warnsOf_record {number line : ℕ} {p : Placement} :
    WarnsOf number (p.record line) ↔ (p.record line).level = .warn ∧ line = number := by
  unfold WarnsOf
  refine and_congr_right fun warn => ?_
  cases p with
  | moved | placed | refused => cases warn
  | ignored target =>
    cases target with
    | none =>
      rw [← line_prefix_iff " ignoring load address that isn't a number".toList]
      simp [Placement.record, String.toList_append]
    | some target =>
      rw [← line_prefix_iff (" ignoring out of range load address " ++ toString target).toList]
      simp [Placement.record, String.toList_append]

/-! ### From readings and placements -/

section OfReading

variable {lines : List (List Char)} {number : ℕ}

/-- A line is read once. -/
theorem filter_readLines {index : ℕ} {line : List Char} (found : lines[index]? = some line) :
    ((readLines 1 lines).filter fun r => r.line = index + 1) =
      [⟨index + 1, Statement.ofLine line⟩] := by
  have member : (⟨index + 1, Statement.ofLine line⟩ : Reading) ∈ readLines 1 lines := by
    refine List.mem_map.2 ⟨(line, index + 1), ?_, rfl⟩
    rw [List.mk_mem_zipIdx_iff_le_and_getElem?_sub]
    exact ⟨Nat.le_add_left 1 index, found⟩
  exact filter_line_of_nodup (nodup_line_readLines 1 lines) member

/-- An entry carries the line of the statement it was placed for. -/
theorem line_of_entry? {p : Located Placement} (member : p ∈ (ofLines lines).placements) {e : Entry}
    (entry : p.value.entry? = some e) : e.line = p.line := by
  obtain ⟨s, hs, address, rfl⟩ := exists_statement_of_mem_place member
  exact (Placement.standsFor_ofStatement (wellFormed_readLines 1 lines s hs) entry).2

/-- What is told of a line, by what was read on it and what was placed for it. -/
theorem told_eq {readings : List Reading} {placements : List (Located Placement)}
    (read : ((ofLines lines).readings.filter fun r => r.line = number) = readings)
    (placed : ((ofLines lines).placements.filter fun p => p.line = number) = placements) :
    (ofLines lines).told number =
      (placements.filterMap fun p => p.value.entry?,
        readings.filterMap readError? ++ placements.filterMap placeError?,
        (placements.map fun p => p.value.record p.line).filter fun r => r.level = .warn) := by
  have entries : ((ofLines lines).program.entries.filter fun e => e.line = number) =
      placements.filterMap fun p => p.value.entry? := by
    rw [← placed]
    exact (filterMap_filter_line (fun p member e => line_of_entry? member) (· = number)).symm
  have errors : ((ofLines lines).errors.filter fun e => e.line = number) =
      readings.filterMap readError? ++ placements.filterMap placeError? := by
    rw [errors, List.filter_append, ← read, ← placed]
    exact congrArg₂ (· ++ ·)
      (filterMap_filter_line (fun r _ e found => (line_of_readError? found).1) (· = number)).symm
      (filterMap_filter_line (fun p _ e found => (line_of_placeError? found).1) (· = number)).symm
  have warnings : ((ofLines lines).log.filter fun r => WarnsOf number r) =
      (placements.map fun p => p.value.record p.line).filter fun r => r.level = .warn := by
    have quiet : ∀ message, ¬ WarnsOf number ⟨.debug, message⟩ := by
      rintro message ⟨warn, -⟩
      cases warn
    have reported : ((ofLines lines).readErrors.map fun e => (⟨.debug, e.message⟩ : Record)).filter
        (fun r => WarnsOf number r) = [] := by
      refine List.filter_eq_nil_iff.2 fun r member => ?_
      obtain ⟨e, -, rfl⟩ := List.mem_map.1 member
      simpa using quiet e.message
    have own : (((ofLines lines).placements.map fun p => p.value.record p.line).filter
        fun r => WarnsOf number r) =
          (placements.map fun p => p.value.record p.line).filter fun r => r.level = .warn := by
      rw [← placed, List.filter_map, List.filter_map, List.filter_filter]
      refine congrArg (List.map _) (List.filter_congr fun p _ => ?_)
      simp [warnsOf_record]
    rw [log, List.filter_append, List.filter_append, reported, own, List.nil_append,
      List.filter_cons_of_neg (by simpa using quiet _), List.filter_nil, List.append_nil]
  rw [told, entries, errors, warnings]

/-! ### What is told of a line, by its reading -/

variable {r : Reading} (only : ((ofLines lines).readings.filter fun r => r.line = number) = [r])

include only in
/-- There is one reading of each line. -/
theorem eq_of_line {s : Reading} (member : s ∈ (ofLines lines).readings) (on : s.line = number) :
    s = r := by
  have picked : s ∈ (ofLines lines).readings.filter fun r => r.line = number :=
    List.mem_filter.2 ⟨member, decide_eq_true on⟩
  rw [only] at picked
  exact List.mem_singleton.1 picked

include only in
/-- Without a statement on the line there is nothing to place. -/
theorem filter_placements_of_none (none : statement? r = none) :
    ((ofLines lines).placements.filter fun p => p.line = number) = [] := by
  refine List.filter_eq_nil_iff.2 fun p member on => ?_
  obtain ⟨s, hs, same, t, value⟩ := exists_statement_of_placement member
  obtain rfl : s = r := eq_of_line only hs (same.trans (of_decide_eq_true on))
  rw [statement?, value] at none
  cases none

include only in
/-- A statement is placed once. -/
theorem exists_filter_placements {s : Statement} (read : r.value = .ok (some s)) :
    ∃ address, ((ofLines lines).placements.filter fun p => p.line = number) =
      [⟨number, Placement.ofStatement address ⟨number, s⟩⟩] := by
  have hr : r ∈ (ofLines lines).readings.filter fun r => r.line = number := by
    rw [only]
    exact List.mem_singleton_self r
  obtain ⟨member, on⟩ := List.mem_filter.1 hr
  have on : r.line = number := of_decide_eq_true on
  have statement : statement? r = some ⟨number, s⟩ := by
    rw [statement?, read, on]
  have line : number ∈ (ofLines lines).placements.map Located.line := by
    rw [map_line_placements]
    exact List.mem_map.2 ⟨⟨number, s⟩, List.mem_filterMap.2 ⟨r, member, statement⟩, rfl⟩
  obtain ⟨p, hp, same⟩ := List.mem_map.1 line
  obtain ⟨t, ht, address, rfl⟩ := exists_statement_of_mem_place hp
  -- The statement that was placed is the one that was read on the line.
  obtain ⟨q, hq, found⟩ := List.mem_filterMap.1 ht
  obtain rfl : q = r := eq_of_line only hq ((line_of_statement? found).1.symm.trans same)
  obtain rfl : (⟨number, s⟩ : Located Statement) = t := Option.some.inj (statement.symm.trans found)
  exact ⟨address, filter_line_of_nodup nodup_line_placements hp⟩

include only in
/-- Of a blank line nothing is told. -/
theorem told_of_blank (read : r.value = .ok none) : (ofLines lines).told number = ([], [], []) := by
  have placed := filter_placements_of_none only (by rw [statement?, read])
  rw [told_eq only placed]
  simp [readError?, read]

include only in
/-- Of a line that cannot be read its error is told. -/
theorem told_of_error {cause : Cause} (read : r.value = .error cause) :
    (ofLines lines).told number = ([], [⟨r.line, cause⟩], []) := by
  have placed := filter_placements_of_none only (by rw [statement?, read])
  rw [told_eq only placed]
  simp [readError?, read]

include only in
/-- Of a statement there is told what its placement tells. -/
theorem told_of_statement {s : Statement} (read : r.value = .ok (some s)) :
    ∃ address placement, Placement.ofStatement address ⟨number, s⟩ = placement ∧
      (ofLines lines).told number =
        (placement.entry?.toList, (placement.cause?.map (⟨number, ·⟩)).toList,
          [placement.record number].filter fun r => r.level = .warn) := by
  obtain ⟨address, placed⟩ := exists_filter_placements only read
  refine ⟨address, _, rfl, ?_⟩
  rw [told_eq only placed]
  cases Placement.ofStatement address ⟨number, s⟩ <;>
    simp [readError?, read, placeError?, Placement.entry?, Placement.cause?]

include only in
/-- Of an origin that moves the address nothing is told. -/
theorem told_of_moved {target : Int} (read : r.value = .ok (some (.origin (some target))))
    (cell : 0 ≤ target ∧ target < (memorySize : Int)) :
    (ofLines lines).told number = ([], [], []) := by
  obtain ⟨address, placement, rfl, told⟩ := told_of_statement only read
  have moved : Placement.ofStatement address ⟨number, .origin (some target)⟩ =
      .moved target.toNat := if_pos cell
  rw [told, moved]
  rfl

include only in
/-- Of an origin that is ignored there is a warning. -/
theorem told_of_ignored {target : Option Int} (read : r.value = .ok (some (.origin target)))
    (outside : ∀ value ∈ target, ¬ (0 ≤ value ∧ value < (memorySize : Int))) :
    (ofLines lines).told number = ([], [], [(Placement.ignored target).record number]) := by
  obtain ⟨address, placement, rfl, told⟩ := told_of_statement only read
  have ignored : Placement.ofStatement address ⟨number, .origin target⟩ = .ignored target := by
    cases target with
    | none => rfl
    | some value => exact if_neg (outside value rfl)
  rw [told, ignored]
  cases target <;> rfl

include only in
/-- A word has a place, or there is no room for it. -/
theorem told_of_word {s : Statement} (read : r.value = .ok (some s)) (word : s.size = 1) :
    (∃ e, (ofLines lines).told number = ([e], [], [])) ∨
      (ofLines lines).told number = ([], [⟨number, .programTooLarge⟩], []) := by
  obtain ⟨address, placement, placed, told⟩ := told_of_statement only read
  have entry : ∃ e, placement = .ofEntry e := by
    cases s with
    | origin => cases word
    | data | instruction => exact ⟨_, placed.symm⟩
  obtain ⟨e, rfl⟩ := entry
  rw [told, Placement.ofEntry]
  split
  · exact .inl ⟨e, rfl⟩
  · exact .inr rfl

end OfReading

/-! ### The fate of a line -/

/-- What is read as nothing is a blank line. -/
theorem isBlankLine_of_grammar {line : List Char} (h : Grammar line (.ok none)) :
    IsBlankLine line := by
  obtain ⟨body, text, form, kept, trimmed, fits, reads⟩ := h
  cases reads
  cases fits with
  | blank empty => exact ⟨body, kept, empty ▸ trimmed⟩

/-- What is read as an origin is an origin line. -/
theorem isOriginLine_of_grammar {line : List Char} {target : Option Int}
    (h : Grammar line (.ok (some (.origin target)))) :
    ∃ text, IsOriginLine line text ∧ numeral? text = target := by
  obtain ⟨body, text, form, kept, trimmed, fits, reads⟩ := h
  cases reads with
  | origin numeral =>
    cases fits with
    | origin marked trimmed' =>
      exact ⟨_, ⟨body, _, kept, marked ▸ trimmed, trimmed'⟩, numeral?_eq_some_iff.2 numeral⟩
  | originWithoutTarget worded =>
    cases fits with
    | origin marked trimmed' =>
      exact ⟨_, ⟨body, _, kept, marked ▸ trimmed, trimmed'⟩, numeral?_eq_none_iff.2 worded⟩

/-- No line is too large in itself. -/
theorem ne_programTooLarge_of_grammar {line : List Char} {cause : Cause}
    (h : Grammar line (.error cause)) : cause ≠ .programTooLarge := by
  obtain ⟨body, text, form, -, -, -, reads⟩ := h
  cases reads <;> exact Cause.noConfusion

/-- **A line has a fate**, which its reading and the room for its word decide. -/
theorem exists_accounted {lines : List (List Char)} {index : ℕ} {line : List Char}
    (found : lines[index]? = some line) : ∃ fate, (ofLines lines).Accounted (index + 1) line fate := by
  have only := filter_readLines found
  obtain ⟨outcome, grammar⟩ := Statement.exists_grammar line
  have read : Statement.ofLine line = outcome := Statement.ofLine_of_grammar grammar
  rcases outcome with cause | statement
  · exact ⟨_, .error (told_of_error only read)⟩
  rcases statement with _ | s
  · exact ⟨_, .blank (isBlankLine_of_grammar grammar) (told_of_blank only read)⟩
  have word (size : s.size = 1) : ∃ fate, (ofLines lines).Accounted (index + 1) line fate := by
    rcases told_of_word only read size with ⟨e, told⟩ | told
    · exact ⟨_, .word told⟩
    · exact ⟨_, .error told⟩
  cases s with
  | data | instruction => exact word rfl
  | origin target =>
    obtain ⟨text, shape, numeral⟩ := isOriginLine_of_grammar grammar
    by_cases address : IsAddress text
    · obtain ⟨value, isNumeral, low, high⟩ := address
      obtain rfl : some value = target := (numeral?_eq_some_iff.2 isNumeral).symm.trans numeral
      have cell : value < (memorySize : Int) := Int.lt_add_one_of_le high
      exact ⟨_, .moved shape ⟨value, isNumeral, low, high⟩ (told_of_moved only read ⟨low, cell⟩)⟩
    · have outside : ∀ value ∈ target, ¬ (0 ≤ value ∧ value < (memorySize : Int)) := by
        rintro value rfl ⟨low, high⟩
        exact address ⟨value, numeral?_eq_some_iff.1 numeral, low, Int.le_of_lt_add_one high⟩
      exact ⟨_, .ignored shape address (told_of_ignored only read outside)⟩

/-! ### The order of entries and errors -/

variable {lines : List (List Char)}

/-- Numbers that are told in the order of the lines. -/
structure InOrder (lines : List (List Char)) (numbers : List ℕ) : Prop where
  increasing : numbers.Pairwise (· < ·)
  bounded : ∀ number ∈ numbers, 1 ≤ number ∧ number ≤ lines.length

/-- Some of the numbers of the lines, in their order, are in order. -/
theorem inOrder_of_sublist {numbers : List ℕ}
    (h : numbers.Sublist ((readLines 1 lines).map Located.line)) : InOrder lines numbers := by
  rw [map_line_readLines] at h
  refine ⟨List.Pairwise.sublist h List.pairwise_lt_range', fun number member => ?_⟩
  have range := List.mem_range'_1.1 (h.subset member)
  omega

/-- Entries come in the order of their lines. -/
theorem inOrder_entries : InOrder lines ((ofLines lines).program.entries.map Entry.line) :=
  inOrder_of_sublist ((sublist_map_line fun _ member _ => line_of_entry? member).trans
    sublist_line_placements)

/-- The errors of reading come in the order of their lines. -/
theorem inOrder_readErrors : InOrder lines ((ofLines lines).readErrors.map Error.line) :=
  inOrder_of_sublist (sublist_map_line fun _ _ _ found => (line_of_readError? found).1)

/-- The errors of placing come in the order of their lines. -/
theorem inOrder_placeErrors : InOrder lines ((ofLines lines).placeErrors.map Error.line) :=
  inOrder_of_sublist ((sublist_map_line fun _ _ _ found => (line_of_placeError? found).1).trans
    sublist_line_placements)

/-- The errors of reading are those that the grammar gives to lines. -/
theorem mem_readErrors_iff {e : Error} :
    e ∈ (ofLines lines).readErrors ↔
      ∃ index line, lines[index]? = some line ∧ e.line = index + 1 ∧ Grammar line (.error e.cause) := by
  constructor
  · intro h
    obtain ⟨r, hr, failed⟩ := List.mem_filterMap.1 h
    obtain ⟨⟨line, number⟩, member, rfl⟩ := List.mem_map.1 hr
    obtain ⟨first, found⟩ := List.mk_mem_zipIdx_iff_le_and_getElem?_sub.1 member
    obtain ⟨same, read⟩ := line_of_readError? failed
    obtain ⟨outcome, grammar⟩ := Statement.exists_grammar line
    have outcome_eq : outcome = .error e.cause := (Statement.ofLine_of_grammar grammar).symm.trans read
    refine ⟨number - 1, line, found, ?_, outcome_eq ▸ grammar⟩
    rw [same]
    dsimp only at first ⊢
    omega
  · rintro ⟨index, line, found, same, grammar⟩
    have member : (⟨index + 1, Statement.ofLine line⟩ : Reading) ∈ (ofLines lines).readings :=
      (List.mem_filter.1 (filter_readLines found ▸ List.mem_singleton_self _)).1
    refine List.mem_filterMap.2 ⟨_, member, ?_⟩
    rw [readError?, Statement.ofLine_of_grammar grammar, ← same]

end Assembly

/-- **Every source line is accounted for exactly once.**

* Each line of the text is blank, is an origin, is one entry, or is one error, and it is only one of these:
  there is nothing else told of it, but that an origin without an address in it is warned of once.
* Entries and errors carry lines of the text, and entries are in the order of their lines.
* The errors are those that lines have by themselves, in the order of the lines, and after them those of
  words without room, in the order of the lines. -/
theorem assemble_accounts (source : String) :
    (∀ index line, (Text.lines source.toList)[index]? = some line →
      ∃! fate, (assemble source).Accounted (index + 1) line fate) ∧
    Assembly.InOrder (Text.lines source.toList) ((assemble source).program.entries.map Entry.line) ∧
    ∃ reading placing, (assemble source).errors = reading ++ placing ∧
      Assembly.InOrder (Text.lines source.toList) (reading.map Assembly.Error.line) ∧
      Assembly.InOrder (Text.lines source.toList) (placing.map Assembly.Error.line) ∧
      (∀ e, e ∈ reading ↔ ∃ index line, (Text.lines source.toList)[index]? = some line ∧
        e.line = index + 1 ∧ Assembly.Grammar line (.error e.cause)) ∧
      (∀ e ∈ reading, e.cause ≠ .programTooLarge) ∧ ∀ e ∈ placing, e.cause = .programTooLarge := by
  refine ⟨fun index line found => ?_, Assembly.inOrder_entries, (assemble source).readErrors,
    (assemble source).placeErrors, rfl, Assembly.inOrder_readErrors, Assembly.inOrder_placeErrors,
    fun e => Assembly.mem_readErrors_iff, fun e member => ?_, fun e member => ?_⟩
  · obtain ⟨fate, accounted⟩ := Assembly.exists_accounted found
    exact ⟨fate, accounted, fun other h => h.unique accounted⟩
  · obtain ⟨-, line, -, -, grammar⟩ := Assembly.mem_readErrors_iff.1 member
    exact Assembly.ne_programTooLarge_of_grammar grammar
  · obtain ⟨p, -, found⟩ := List.mem_filterMap.1 member
    obtain ⟨cause, hcause, rfl⟩ := Option.map_eq_some_iff.1 found
    have refused := (Assembly.line_of_placeError? found).2
    rw [refused] at hcause
    exact (Option.some.inj hcause).symm

/-- A text with a line of every fate: two origins, two words, a comment, a line that cannot be read and a word
without room. -/
def littered : String := "*98
DAT 7
 // nothing
LDA x
*100 ; too far
HLT
DAT 3"

/-- The fifth line is an origin that is warned of, and nothing else. -/
theorem assemble_accounts_littered :
    (Text.lines littered.toList)[4]? = some "*100 ; too far".toList ∧
      (assemble littered).Accounted 5 "*100 ; too far".toList .origin ∧
      (assemble littered).told 5 =
        ([], [], [⟨.warn, "Line 5: ignoring out of range load address 100"⟩]) ∧
      (assemble littered).told 7 = ([], [⟨7, .programTooLarge⟩], []) := by
  have found : (Text.lines littered.toList)[4]? = some "*100 ; too far".toList := by decide +kernel
  have told : (assemble littered).told 5 =
      ([], [], [⟨.warn, "Line 5: ignoring out of range load address 100"⟩]) := by decide +kernel
  obtain ⟨fate, accounted, -⟩ := (assemble_accounts littered).1 4 _ found
  refine ⟨found, ?_, told, by decide +kernel⟩
  cases accounted with
  | moved shape address told' => exact .moved shape address told'
  | ignored shape address told' => exact .ignored shape address told'
  | blank _ told' | word told' | error told' => cases told.symm.trans told'

end DecimalMachine
