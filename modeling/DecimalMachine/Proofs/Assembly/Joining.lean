/-
# Texts that are put together

Of the lines of a text, only the load address is handed on to the lines behind them. So a text can be cut
anywhere, and each part be assembled for itself:

| of the whole | first | then, with the lines counted on |
| --- | --- | --- |
| entries | those of the first part | those of the second part, from the load address of the first |
| errors of reading | those of the first part | those of the second part |
| errors of placing | those of the first part | those of the second part, from the load address of the first |

A second part that begins with an origin does not need the load address, and lines in between that set none
only move the lines behind them.

Route: all lines are counted by one function of their numbers, with which reading and placing commute.
-/

import DecimalMachine.Proofs.Assembly.Addresses
import DecimalMachine.Proofs.Text.Lines
import DecimalMachine.Proofs.Text.Tokens

namespace DecimalMachine

/-- The same entry for another line. -/
def Entry.renumber (f : ℕ → ℕ) (e : Entry) : Entry := { e with line := f e.line }

namespace Assembly

open Text

/-- The same error on another line. -/
def Error.renumber (f : ℕ → ℕ) (e : Error) : Error := { e with line := f e.line }

/-- The same thing on another line. -/
def Located.renumber {α : Type} (f : ℕ → ℕ) (r : Located α) : Located α := { r with line := f r.line }

/-- The same placement on another line. -/
def Placement.renumber (f : ℕ → ℕ) : Placement → Placement
  | placed e => placed (e.renumber f)
  | p => p

/-- Reads and places the lines of a text from a load address on. -/
def startingAt (address : ℕ) (lines : List (List Char)) : Assembly where
  readings := readLines 1 lines
  placements := place address ((readLines 1 lines).filterMap statement?)

/-- The load address behind the lines of a text. -/
def loadAddress (lines : List (List Char)) : ℕ := addressAfter 0 (ofLines lines).statements

/-- The line that sets the load address. -/
def originLine (target : ℕ) : List Char := '*' :: (toString target).toList

/-- A line that yields nothing: a blank one, perhaps with a comment, or an origin without effect. -/
def IsIdleLine (line : List Char) : Prop :=
  IsBlankLine line ∨ ∃ target, IsOriginLine line target ∧ ¬ IsAddress target

/-- The number of a line after other lines were put in behind some of the lines. -/
def moveBehind (kept added number : ℕ) : ℕ := if number ≤ kept then number else number + added

/-! ### Other numbers -/

section Renumber

variable {f : ℕ → ℕ}

/-- What is looked for may be given other numbers before or after it is found. -/
theorem filterMap_map_of_commutes {α β γ δ : Type} {find : α → Option β} {find' : γ → Option δ}
    {g : α → γ} {g' : β → δ} (commutes : ∀ a, find' (g a) = (find a).map g') (list : List α) :
    (list.map g).filterMap find' = (list.filterMap find).map g' := by
  rw [List.filterMap_map, List.map_filterMap]
  exact List.filterMap_congr fun a _ => commutes a

/-- A statement that is renumbered is read alike. -/
theorem statement?_renumber (r : Reading) :
    statement? (r.renumber f) = (statement? r).map (Located.renumber f) := by
  obtain ⟨line, _ | _ | s⟩ := r <;> rfl

/-- An error of reading gets the new number. -/
theorem readError?_renumber (r : Reading) :
    readError? (r.renumber f) = (readError? r).map (Error.renumber f) := by
  obtain ⟨line, _ | s⟩ := r <;> rfl

/-- A placement on another line. -/
def relocate (f : ℕ → ℕ) (p : Located Placement) : Located Placement := ⟨f p.line, p.value.renumber f⟩

/-- The entry of a placement gets the new number. -/
theorem entry?_relocate (p : Located Placement) :
    Placement.entry? (relocate f p).value = p.value.entry?.map (Entry.renumber f) := by
  obtain ⟨line, _ | _ | e | _⟩ := p <;> rfl

/-- The error of a placement gets the new number. -/
theorem placeError?_relocate (p : Located Placement) :
    placeError? (relocate f p) = (placeError? p).map (Error.renumber f) := by
  obtain ⟨line, _ | _ | e | _⟩ := p <;> rfl

/-- The entries of all placements get the new numbers. -/
theorem filterMap_relocate (list : List (Located Placement)) :
    (list.map (relocate f)).filterMap (fun p => p.value.entry?) =
      (list.filterMap fun p => p.value.entry?).map (Entry.renumber f) := by
  refine filterMap_map_of_commutes ?_ list
  exact entry?_relocate

/-- A statement comes to the same on another line. -/
theorem ofStatement_renumber (address : ℕ) (s : Located Statement) :
    Placement.ofStatement address (s.renumber f) = (Placement.ofStatement address s).renumber f := by
  have word {e e' : Entry} (same : e' = e.renumber f) :
      Placement.ofEntry e' = (Placement.ofEntry e).renumber f := by
    subst same
    unfold Placement.ofEntry Entry.renumber
    dsimp only
    split <;> rfl
  obtain ⟨line, value⟩ := s
  cases value with
  | data | instruction => exact word rfl
  | origin target =>
    cases target with
    | none => rfl
    | some target =>
      simp only [Located.renumber, Placement.ofStatement]
      split <;> rfl

/-- The number of a line does not move the address. -/
theorem next_renumber (address : ℕ) (p : Placement) :
    (p.renumber f).next address = p.next address := by
  cases p <;> rfl

/-- **Placing commutes with other numbers for the lines.** -/
theorem place_renumber (address : ℕ) (statements : List (Located Statement)) :
    place address (statements.map (Located.renumber f)) =
      (place address statements).map (relocate f) := by
  induction statements generalizing address with
  | nil => rfl
  | cons s rest ih =>
    rw [List.map_cons, place, place, List.map_cons, ofStatement_renumber, next_renumber, ih]
    rfl

/-- Lines that are read with other numbers. -/
theorem readLines_renumber {first : ℕ} (other : ℕ) {lines : List (List Char)}
    (h : ∀ index < lines.length, f (first + index) = other + index) :
    (readLines first lines).map (Located.renumber f) = readLines other lines := by
  induction lines generalizing first other with
  | nil => rfl
  | cons line rest ih =>
    have start : f first = other := h 0 (Nat.zero_lt_succ _)
    have later : ∀ index < rest.length, f (first + 1 + index) = other + 1 + index := by
      intro index inside
      rw [Nat.add_assoc, Nat.add_assoc, Nat.add_comm 1 index]
      exact h (index + 1) (Nat.succ_lt_succ inside)
    rw [readLines_cons, readLines_cons, List.map_cons, ih (other + 1) later, Located.renumber, start]

end Renumber

/-- Lines are read in two parts, the second with its numbers moved on. -/
theorem readLines_append (first : ℕ) (a b : List (List Char)) :
    readLines first (a ++ b) = readLines first a ++ readLines (first + a.length) b := by
  rw [readLines, List.zipIdx_append, List.map_append]
  rfl

/-- The second part is read as for itself, with its lines counted on. -/
theorem readLines_one_append (a b : List (List Char)) :
    readLines 1 (a ++ b) =
      readLines 1 a ++ (readLines 1 b).map (Located.renumber (· + a.length)) := by
  rw [readLines_append, readLines_renumber (1 + a.length)]
  intro index _
  omega

/-! ### Two parts -/

section Parts

variable (a b : List (List Char))

/-- The statements of joined texts are those of both, the second ones renumbered. -/
theorem statements_append :
    (ofLines (a ++ b)).statements =
      (ofLines a).statements ++ (ofLines b).statements.map (Located.renumber (· + a.length)) := by
  simp only [statements_ofLines]
  rw [readLines_one_append, List.filterMap_append, filterMap_map_of_commutes statement?_renumber]

/-- **The second part is placed from the load address of the first.** -/
theorem placements_append :
    (ofLines (a ++ b)).placements = (ofLines a).placements ++
      (startingAt (loadAddress a) b).placements.map (relocate (· + a.length)) := by
  rw [placements_ofLines, statements_append, place_append, place_renumber]
  rfl

/-- The errors of reading are those of the first part and those of the second, renumbered. -/
theorem readErrors_append :
    (ofLines (a ++ b)).readErrors =
      (ofLines a).readErrors ++ (ofLines b).readErrors.map (Error.renumber (· + a.length)) := by
  simp only [readErrors_ofLines]
  rw [readLines_one_append, List.filterMap_append, filterMap_map_of_commutes readError?_renumber]

/-- The entries of the second text are those that it has from the address where the first one leaves off. -/
theorem entries_append :
    (ofLines (a ++ b)).program.entries = (ofLines a).program.entries ++
      (startingAt (loadAddress a) b).program.entries.map (Entry.renumber (· + a.length)) := by
  have entries (assembly : Assembly) :
      assembly.program.entries = assembly.placements.filterMap fun p => p.value.entry? := rfl
  rw [entries, placements_append, List.filterMap_append, filterMap_relocate]
  rfl

/-- The errors of placing of the second text are those that it has from the address where the first one
leaves off. -/
theorem placeErrors_append :
    (ofLines (a ++ b)).placeErrors = (ofLines a).placeErrors ++
      (startingAt (loadAddress a) b).placeErrors.map (Error.renumber (· + a.length)) := by
  rw [placeErrors, placements_append, List.filterMap_append,
    filterMap_map_of_commutes placeError?_relocate]
  rfl

end Parts

/-! ### A part that begins with an origin -/

/-- The line is read as the origin that it shows. -/
theorem ofLine_originLine {target : ℕ} (h : target ≤ 99) :
    Statement.ofLine (originLine target) = .ok (some (.origin (some (target : Int)))) := by
  have fits : InNumeralRange (target : Int) := by
    unfold InNumeralRange
    omega
  have numeral : IsNumeral (toString target).toList (target : Int) := isNumeral_toString fits
  have word := numeral.isWord
  have whole : IsWord (originLine target) :=
    ⟨List.cons_ne_nil _ _, List.forall_mem_cons.2 ⟨by decide, word.solid⟩,
      List.forall_mem_cons.2 ⟨by decide, word.plain⟩⟩
  exact Statement.ofLine_of_grammar ⟨_, _, _, whole.laidOut.uncommented, whole.laidOut.trimmed,
    .origin rfl word.laidOut.trimmed, .origin numeral⟩

/-- **A part that begins with an origin does not depend on the load address.** -/
theorem startingAt_originLine (address : ℕ) {target : ℕ} (h : target ≤ 99) (b : List (List Char)) :
    startingAt address (originLine target :: b) = ofLines (originLine target :: b) := by
  have first : statement? ⟨1, Statement.ofLine (originLine target)⟩ =
      some ⟨1, .origin (some (target : Int))⟩ := by
    rw [ofLine_originLine h]
    rfl
  have sets (address : ℕ) : Placement.ofStatement address ⟨1, .origin (some (target : Int))⟩ =
      .moved target := by
    refine if_pos ⟨Int.natCast_nonneg target, ?_⟩
    exact Int.ofNat_lt.2 (Nat.lt_succ_of_le h)
  have placed (address : ℕ) :
      place address ((readLines 1 (originLine target :: b)).filterMap statement?) =
        ⟨1, .moved target⟩ :: place target ((readLines 2 b).filterMap statement?) := by
    rw [readLines_cons, List.filterMap_cons_some first, place, sets]
    rfl
  have same := (placed address).trans (placed 0).symm
  unfold startingAt ofLines
  rw [same]

/-- An origin in front moves the numbers of the errors on. -/
theorem readErrors_originLine {target : ℕ} (h : target ≤ 99) (b : List (List Char)) :
    (ofLines (originLine target :: b)).readErrors =
      (ofLines b).readErrors.map (Error.renumber (· + 1)) := by
  have silent : (ofLines [originLine target]).readErrors = [] := by
    have read : readError? ⟨1, Statement.ofLine (originLine target)⟩ = none := by
      rw [ofLine_originLine h]
      rfl
    exact List.filterMap_cons_none read
  have joined := readErrors_append [originLine target] b
  rw [silent] at joined
  exact joined

/-! ### Lines that yield nothing -/

/-- A line that yields nothing is read as nothing or as an origin without effect. -/
theorem isIdle_of_isIdleLine {line : List Char} (h : IsIdleLine line) :
    ∃ statement, Statement.ofLine line = .ok statement ∧ ∀ s ∈ statement, s.isIdle = true := by
  rcases h with ⟨body, kept, empty⟩ | ⟨target, ⟨body, rest, kept, marked, trimmed⟩, outside⟩
  · exact ⟨none, Statement.ofLine_of_grammar ⟨body, [], .blank, kept, empty, .blank rfl, .blank⟩, nofun⟩
  · rcases numeral : numeral? target with _ | value
    · refine ⟨some (.origin none), Statement.ofLine_of_grammar ⟨body, _, _, kept, marked,
        .origin rfl trimmed, .originWithoutTarget (numeral?_eq_none_iff.1 numeral)⟩, ?_⟩
      rintro s ⟨⟩
      rfl
    · have isNumeral := numeral?_eq_some_iff.1 numeral
      refine ⟨some (.origin (some value)), Statement.ofLine_of_grammar ⟨body, _, _, kept, marked,
        .origin rfl trimmed, .origin isNumeral⟩, ?_⟩
      rintro s ⟨⟩
      have still : Statement.target? (.origin (some value)) = none :=
        if_neg fun inside => outside ⟨value, isNumeral, inside⟩
      rw [Statement.isIdle, still]
      rfl

section Inserted

variable {idle : List (List Char)} (h : ∀ line ∈ idle, IsIdleLine line)

include h in
/-- Idle lines have no errors. -/
theorem readErrors_of_idle (first : ℕ) : (readLines first idle).filterMap readError? = [] := by
  refine List.filterMap_eq_nil_iff.2 fun r member => ?_
  obtain ⟨⟨line, number⟩, inside, rfl⟩ := List.mem_map.1 member
  obtain ⟨statement, read, -⟩ := isIdle_of_isIdleLine (h line (List.fst_mem_of_mem_zipIdx inside))
  dsimp only [readError?]
  rw [read]

include h in
/-- Idle lines have no statements but origins that are ignored. -/
theorem statements_of_idle (first : ℕ) :
    ((readLines first idle).filterMap statement?).filter (fun s => !s.value.isIdle) = [] := by
  refine List.filter_eq_nil_iff.2 fun s member => ?_
  obtain ⟨r, hr, found⟩ := List.mem_filterMap.1 member
  obtain ⟨⟨line, number⟩, inside, rfl⟩ := List.mem_map.1 hr
  obtain ⟨statement, read, still⟩ := isIdle_of_isIdleLine (h line (List.fst_mem_of_mem_zipIdx inside))
  obtain ⟨-, value⟩ := line_of_statement? found
  have own : statement = some s.value := Except.ok.inj (read.symm.trans value)
  simp [still s.value own]

/-- All lines of both parts are read, those of the second with other numbers. -/
theorem readLines_inserted (a b : List (List Char)) :
    (readLines 1 (a ++ b)).map (Located.renumber (moveBehind a.length idle.length)) =
      readLines 1 a ++ readLines (1 + a.length + idle.length) b := by
  rw [readLines_append, List.map_append, readLines_renumber 1,
    readLines_renumber (1 + a.length + idle.length)]
  · intro index inside
    rw [moveBehind, if_neg (by omega)]
    omega
  · intro index inside
    exact if_pos (by omega)

include h in
/-- Idle lines in between move the numbers of later errors on. -/
theorem readErrors_inserted (a b : List (List Char)) :
    (ofLines (a ++ idle ++ b)).readErrors =
      (ofLines (a ++ b)).readErrors.map (Error.renumber (moveBehind a.length idle.length)) := by
  rw [readErrors_ofLines, readErrors_ofLines, ← filterMap_map_of_commutes readError?_renumber,
    readLines_inserted, readLines_append, readLines_append, List.length_append, ← Nat.add_assoc]
  simp only [List.filterMap_append]
  rw [readErrors_of_idle h, List.append_nil]

include h in
/-- **Lines that yield nothing only move what is placed behind them.** It need not be said what is looked for
among the placements, only that it is not an origin without effect. -/
theorem filterMap_placements_inserted {β : Type} {find : Located Placement → Option β} {g : β → β}
    (quiet : ∀ line target, find ⟨line, .ignored target⟩ = none) (a b : List (List Char))
    (commutes : ∀ p, find (relocate (moveBehind a.length idle.length) p) = (find p).map g) :
    (ofLines (a ++ idle ++ b)).placements.filterMap find =
      ((ofLines (a ++ b)).placements.filterMap find).map g := by
  set before := (readLines 1 a).filterMap statement?
  set behind := (readLines (1 + a.length + idle.length) b).filterMap statement?
  set between := (readLines (1 + a.length) idle).filterMap statement?
  have whole : (ofLines (a ++ idle ++ b)).placements = place 0 (before ++ between ++ behind) := by
    rw [ofLines, readLines_append, readLines_append, List.filterMap_append, List.filterMap_append,
      List.length_append, ← Nat.add_assoc]
  have parts : (ofLines (a ++ b)).placements.map (relocate (moveBehind a.length idle.length)) =
      place 0 (before ++ behind) := by
    rw [ofLines, ← place_renumber, ← filterMap_map_of_commutes statement?_renumber,
      readLines_inserted, List.filterMap_append]
  have left : (before ++ between ++ behind).filter (fun s => !s.value.isIdle) =
      (before ++ behind).filter fun s => !s.value.isIdle := by
    rw [List.filter_append, List.filter_append, statements_of_idle h, List.append_nil,
      List.filter_append]
  calc (ofLines (a ++ idle ++ b)).placements.filterMap find
      = (place 0 ((before ++ between ++ behind).filter fun s => !s.value.isIdle)).filterMap find := by
        rw [whole, filterMap_place_idle quiet]
    _ = (place 0 (before ++ behind)).filterMap find := by rw [left, filterMap_place_idle quiet]
    _ = ((ofLines (a ++ b)).placements.filterMap find).map g := by
        rw [← parts, filterMap_map_of_commutes commutes]

end Inserted

/-! ### Lines and their ends -/

/-- A carriage return at the end of a line is one of the blanks around it, or in its comment. -/
theorem ofLine_withoutReturn (line : List Char) :
    Statement.ofLine (withoutReturn line) = Statement.ofLine line := by
  rcases withoutReturn_cases line with same | ended
  · rw [same]
  · have blank : ∀ c ∈ ['\r'], isBlank c = true := List.forall_mem_singleton.2 rfl
    generalize withoutReturn line = kept at ended
    subst ended
    rw [Statement.ofLine, Statement.ofLine, withoutComment_append_of_blanks blank]
    split
    · next whole => rw [trim_append_blank rfl, whole]
    · rfl

/-- A carriage return at the end of a line makes no difference. -/
theorem ofLines_map_withoutReturn (rows : List (List Char)) :
    ofLines (rows.map withoutReturn) = ofLines rows := by
  have read (first : ℕ) : readLines first (rows.map withoutReturn) = readLines first rows := by
    induction rows generalizing first with
    | nil => rfl
    | cons line rest ih => rw [List.map_cons, readLines_cons, readLines_cons, ofLine_withoutReturn, ih]
  rw [ofLines, ofLines, read]

/-- **The text of lines is assembled as the lines are.** -/
theorem assemble_joined {rows : List (List Char)} (h : ∀ line ∈ rows, '\n' ∉ line) :
    assemble (String.ofList (joined rows)) = ofLines rows := by
  rw [assemble, String.toList_ofList, lines_joined h, ofLines_map_withoutReturn]

/-! ### The whole -/

/-- **Assembly is compositional.**

* A text whose second part begins with an origin has the entries of both parts, and of each kind the errors
  of both parts; the lines of the second part are counted on.
* Without the origin, the second part is placed from the load address behind the first.
* Lines that are blank, comments or origins without effect only move the lines behind them.
* The text of any lines is assembled as the lines are. -/
theorem ofLines_composes :
    (∀ (a b : List (List Char)) (target : ℕ), target ≤ 99 →
      (ofLines (a ++ originLine target :: b)).program.entries =
        (ofLines a).program.entries ++
          (ofLines (originLine target :: b)).program.entries.map (Entry.renumber (· + a.length)) ∧
      (ofLines (a ++ originLine target :: b)).errors =
        (ofLines a).readErrors ++ (ofLines b).readErrors.map (Error.renumber (· + (a.length + 1))) ++
          (ofLines a).placeErrors ++
          (ofLines (originLine target :: b)).placeErrors.map (Error.renumber (· + a.length))) ∧
    (∀ a b : List (List Char),
      (ofLines (a ++ b)).program.entries =
        (ofLines a).program.entries ++
          (startingAt (loadAddress a) b).program.entries.map (Entry.renumber (· + a.length)) ∧
      (ofLines (a ++ b)).errors =
        (ofLines a).readErrors ++ (ofLines b).readErrors.map (Error.renumber (· + a.length)) ++
          (ofLines a).placeErrors ++
          (startingAt (loadAddress a) b).placeErrors.map (Error.renumber (· + a.length))) ∧
    (∀ a idle b : List (List Char), (∀ line ∈ idle, IsIdleLine line) →
      (ofLines (a ++ idle ++ b)).program.entries =
        (ofLines (a ++ b)).program.entries.map (Entry.renumber (moveBehind a.length idle.length)) ∧
      (ofLines (a ++ idle ++ b)).errors =
        (ofLines (a ++ b)).errors.map (Error.renumber (moveBehind a.length idle.length))) ∧
    ∀ rows : List (List Char), (∀ line ∈ rows, '\n' ∉ line) →
      assemble (String.ofList (joined rows)) = ofLines rows := by
  refine ⟨?_, ?_, ?_, fun rows => assemble_joined⟩
  · intro a b target h
    have counted : (ofLines (originLine target :: b)).readErrors.map (Error.renumber (· + a.length)) =
        (ofLines b).readErrors.map (Error.renumber (· + (a.length + 1))) := by
      rw [readErrors_originLine h, List.map_map]
      refine List.map_congr_left fun e _ => ?_
      simp only [Function.comp, Error.renumber]
      rw [Nat.add_right_comm, Nat.add_assoc]
    rw [errors, entries_append, readErrors_append, placeErrors_append, startingAt_originLine _ h, counted]
    exact ⟨rfl, (List.append_assoc _ _ _).symm⟩
  · intro a b
    rw [errors, entries_append, readErrors_append, placeErrors_append]
    exact ⟨rfl, (List.append_assoc _ _ _).symm⟩
  · intro a idle b h
    refine ⟨filterMap_placements_inserted h (fun _ _ => rfl) a b entry?_relocate, ?_⟩
    rw [errors, errors, List.map_append, readErrors_inserted h]
    exact congrArg _ (filterMap_placements_inserted h (fun _ _ => rfl) a b placeError?_relocate)

/-- A word and a line with an error. -/
def upper : List (List Char) := ["DAT 1".toList, "DAT x".toList]

/-- More words than there is room for behind cell 98, and a line with an error among them. -/
def lower : List (List Char) := ["IN".toList, "nope".toList, "OUT".toList, "HLT".toList]

/-- A comment, and an origin without effect. -/
def silent : List (List Char) := [" ; nothing".toList, "*100".toList]

/-- Each of these lines is idle. -/
theorem isIdleLine_of_mem_silent : ∀ line ∈ silent, IsIdleLine line := by
  refine List.forall_mem_cons.2 ⟨.inl ⟨[' '], uncommented_iff.2 rfl, trimmed_iff.2 rfl⟩,
    List.forall_mem_singleton.2 (.inr ⟨"100".toList, ⟨"*100".toList, "100".toList,
      uncommented_iff.2 rfl, trimmed_iff.2 rfl, trimmed_iff.2 rfl⟩, ?_⟩)⟩
  rintro ⟨value, numeral, -, high⟩
  have read : numeral? "100".toList = some 100 := rfl
  obtain rfl : 100 = value := Option.some.inj (read.symm.trans (numeral?_eq_some_iff.2 numeral))
  exact absurd high (by decide)

/-- Both parts with an origin between them, and both with silent lines between them, joined to a text. -/
theorem ofLines_composes_upper :
    98 ≤ 99 ∧ (∀ line ∈ silent, IsIdleLine line) ∧
      (∀ line ∈ upper ++ silent ++ lower, '\n' ∉ line) ∧
      (ofLines (upper ++ originLine 98 :: lower)).errors =
        [⟨2, .invalidLiteral "x"⟩, ⟨5, .unknownMnemonic "nope"⟩, ⟨7, .programTooLarge⟩] ∧
      (assemble (String.ofList (joined (upper ++ silent ++ lower)))).program.entries =
        [.ofData 0 1 1, .ofInstruction 1 ⟨.input, 0⟩ 5, .ofInstruction 2 ⟨.output, 0⟩ 7,
          .ofInstruction 3 ⟨.halt, 0⟩ 8] := by
  have room : 98 ≤ 99 := by decide
  have feedless : ∀ line ∈ upper ++ silent ++ lower, '\n' ∉ line := by decide
  obtain ⟨origins, -, insertions, texts⟩ := ofLines_composes
  refine ⟨room, isIdleLine_of_mem_silent, feedless, ?_, ?_⟩
  · exact (origins upper lower 98 room).2.trans (by decide +kernel)
  · rw [texts _ feedless, (insertions upper silent lower isIdleLine_of_mem_silent).1]
    decide +kernel

end Assembly
end DecimalMachine
