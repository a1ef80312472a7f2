/-
# Numbers alone, and behind `DAT`

A line that is a number is the same statement without and with `DAT` in front of it, as long as the number
fits in 32 bits:

| number | alone | behind `DAT` |
| --- | --- | --- |
| a word | that word | that word |
| fits, but is no word | `valueOutOfRange` | `valueOutOfRange` |
| does not fit | `unknownMnemonic` | `invalidLiteral` |

However many leading zeros it has, a number is judged by its value. A number that does not fit is no numeral:
alone it is taken for a mnemonic, and no opcode is spelled like that (`not_spells_of_isSigned`), while behind
`DAT` there is nothing else that it could be taken for. Neither takes an address, so the program is always the
same, and the two texts differ in the kind of one error.
-/

import DecimalMachine.Proofs.Assembly.Layout

namespace DecimalMachine

open Text

/-! ### A number spells nothing -/

/-- Spellings are made of capital letters. -/
theorem Opcode.le_toNat_of_mem_mnemonics {op : Opcode} {spelling : String} (h : spelling ∈ op.mnemonics) :
    ∀ c ∈ spelling.toList, 65 ≤ c.toNat := by
  have capital : (op.mnemonics.all fun spelling => spelling.toList.all fun c => 65 ≤ c.toNat) = true := by
    cases op <;> rfl
  intro c member
  exact of_decide_eq_true (List.all_eq_true.1 (List.all_eq_true.1 capital spelling h) c member)

namespace Assembly

variable {text : List Char} {value : Int}

/-- A number stays what it is in upper case. -/
theorem map_toUpper_of_isSigned (h : IsSigned text value) : text.map Char.toUpper = text :=
  map_toUpper_eq_self fun c hc => (toUpper_eq_iff (h.toNat_lt c hc)).2 rfl

/-- A signed number spells no opcode. -/
theorem not_spells_of_isSigned (h : IsSigned text value) (op : Opcode) : ¬ Spells text op := by
  rintro ⟨spelling, listed, same⟩
  rw [map_toUpper_of_isSigned h] at same
  obtain ⟨c, hc⟩ := List.exists_mem_of_ne_nil text h.ne_nil
  have low := h.toNat_lt c hc
  have high := Opcode.le_toNat_of_mem_mnemonics listed c (same ▸ hc)
  omega

/-- A signed number is not the mark of data. -/
theorem isDataDirective_of_isSigned (h : IsSigned text value) : Statement.isDataDirective text = false := by
  rw [Bool.eq_false_iff, ne_eq, isDataDirective_iff, EqIgnoringCase, map_toUpper_of_isSigned h]
  rintro rfl
  exact absurd (h.toNat_lt 'D' (by decide)) (by decide)

/-! ### What the two lines are read as -/

/-- The outcome of a line depends on its tokens. -/
theorem outcome_of_laidOut {line : List Char} {row : List (List Char)} (h : LaidOut line row) :
    Statement.outcome line = Statement.tokenOutcome row := by
  rw [Statement.outcome_eq, ← uncommented_iff.1 h.uncommented, ← tokenised_iff.1 h.tokenised]

/-- A number alone: a literal if it fits, and otherwise no mnemonic. -/
theorem outcome_number (h : IsSigned text value) :
    Statement.outcome text =
      if InNumeralRange value then Statement.literalOutcome (some value) else .error .unknownMnemonic := by
  have unmarked : ¬ text.head? = some '*' := fun marked =>
    absurd (h.mem (List.mem_of_head? marked)) (by decide)
  have coded : ¬ Statement.isDataDirective text = true :=
    Bool.eq_false_iff.1 (isDataDirective_of_isSigned h)
  have number : soleNumeral? [text] = if InNumeralRange value then some value else none :=
    numeral?_of_isSigned h
  rw [outcome_of_laidOut h.isWord.laidOut, Statement.tokenOutcome, if_neg unmarked, if_neg coded, number]
  by_cases fits : InNumeralRange value
  · rw [if_pos fits, if_pos fits]
    rfl
  · rw [if_neg fits, if_neg fits, Statement.ofTokens, ofMnemonic?_eq_none (not_spells_of_isSigned h)]
    rfl

/-- The number behind `DAT`: a literal in any case. -/
theorem outcome_directed (h : IsSigned text value) :
    Statement.outcome ("DAT ".toList ++ text) =
      Statement.literalOutcome (if InNumeralRange value then some value else none) := by
  have laidOut : LaidOut ("DAT ".toList ++ text) [['D', 'A', 'T'], text] :=
    isWord_dat.laidOut_pair h.isWord
  have number : soleNumeral? [text] = if InNumeralRange value then some value else none :=
    numeral?_of_isSigned h
  rw [outcome_of_laidOut laidOut, ← number]
  rfl

/-! ### A text with one line or the other -/

/-- What is found on a line stands between what is found in front of it and what is found behind it. -/
theorem exists_found_around {β : Type} (find : ℕ → Outcome → Option β) (front behind : List Outcome) :
    ∃ after, ∀ outcome, found find (front ++ outcome :: behind) =
      found find front ++ ((find (front.length + 1) outcome).toList ++ after) := by
  refine ⟨(behind.zipIdx (front.length + 2)).filterMap fun p => find p.2 p.1, fun outcome => ?_⟩
  rw [found, found, List.zipIdx_append, List.zipIdx_cons, List.filterMap_append, List.filterMap_cons,
    Nat.add_comm 1 front.length]
  dsimp only
  cases find (front.length + 1) outcome <;> rfl

/-- An error on a line takes no address, whatever its kind: nothing depends on the kind but the error itself. -/
theorem exists_kinds_around (front behind : List Outcome) :
    ∃ program kindsBefore kindsBehind, ∀ (rows : List (List Char)) (kind : Cause.Kind),
      Padded (rows.map Statement.outcome) (front ++ .error kind :: behind) →
        (ofLines rows).program = program ∧
          (ofLines rows).kinds = kindsBefore ++ (front.length + 1, kind) :: kindsBehind := by
  obtain ⟨statementsBehind, hstatements⟩ := exists_found_around statementOf front behind
  obtain ⟨readBehind, hread⟩ := exists_found_around kindOf front behind
  refine ⟨⟨(place 0 (found statementOf front ++ statementsBehind)).filterMap fun p => p.value.entry?⟩,
    found kindOf front, readBehind ++ ((place 0 (found statementOf front ++ statementsBehind)).filterMap
      placeError?).map fun e => (e.line, e.cause.kind), fun rows kind padded => ?_⟩
  have statements : (ofLines rows).statements = found statementOf front ++ statementsBehind := by
    rw [statements_eq_found, found_of_padded (fun _ => rfl) padded, hstatements]
    rfl
  have placements : (ofLines rows).placements = place 0 (found statementOf front ++ statementsBehind) :=
    congrArg (place 0) statements
  have read : (ofLines rows).readErrors.map (fun e => (e.line, e.cause.kind)) =
      found kindOf front ++ ((front.length + 1, kind) :: readBehind) := by
    rw [readKinds_eq_found, found_of_padded (fun _ => rfl) padded, hread]
    rfl
  refine ⟨by rw [program, placements], ?_⟩
  rw [kinds, errors, List.map_append, read, placeErrors, placements, List.append_assoc,
    List.cons_append]

end Assembly

/-- **A number and the number behind `DAT` are assembled alike, if the number fits in 32 bits.** The program
is the same in any case. A number that does not fit is an error on its line, `unknownMnemonic` if it stands
alone and `invalidLiteral` behind `DAT`; all other errors are the same. -/
theorem assemble_directed {front text after : List Char} {value : Int} (begins : EndsLine front)
    (ends : IsLineEnd after) (number : IsSigned text value) :
    let bare := assemble (String.ofList (front ++ text ++ after))
    let directed := assemble (String.ofList (front ++ ("DAT ".toList ++ text) ++ after))
    directed.program = bare.program ∧ (directed.kinds = bare.kinds ↔ InNumeralRange value) ∧
      (¬ InNumeralRange value → ∃ before behind,
        bare.kinds = before ++ ((lines front).length + 1, .unknownMnemonic) :: behind ∧
          directed.kinds = before ++ ((lines front).length + 1, .invalidLiteral) :: behind) := by
  intro bare directed
  obtain ⟨behind, row⟩ := Assembly.exists_outcomes_around begins ends
  have feedless : '\n' ∉ text := number.isWord.isLine.feedless
  have feedless' : '\n' ∉ "DAT ".toList ++ text := (isWord_dat.isLine.pair number.isWord.isLine).feedless
  have bareRow := row text feedless
  have directedRow := row ("DAT ".toList ++ text) feedless'
  rw [Assembly.outcome_number number] at bareRow
  rw [Assembly.outcome_directed number] at directedRow
  have assembled (source : List Char) : assemble (String.ofList source) = .ofLines (lines source) :=
    congrArg (fun source => Assembly.ofLines (lines source)) String.toList_ofList
  have hbare : bare = .ofLines (lines (front ++ text ++ after)) := assembled _
  have hdirected : directed = .ofLines (lines (front ++ ("DAT ".toList ++ text) ++ after)) := assembled _
  rw [hbare, hdirected]
  by_cases fits : InNumeralRange value
  · rw [if_pos fits] at bareRow directedRow
    obtain ⟨program, kinds⟩ := Assembly.eq_of_padded (bareRow.trans directedRow.symm)
    exact ⟨program, iff_of_true kinds fits, fun big => absurd fits big⟩
  · rw [if_neg fits] at bareRow directedRow
    obtain ⟨program, before, after, told⟩ :=
      Assembly.exists_kinds_around (Assembly.outcomes front) behind
    obtain ⟨bareProgram, bareKinds⟩ := told _ _ bareRow
    obtain ⟨directedProgram, directedKinds⟩ := told _ _ directedRow
    have number : (Assembly.outcomes front).length = (lines front).length := List.length_map _
    rw [number] at bareKinds directedKinds
    refine ⟨directedProgram.trans bareProgram.symm, iff_of_false ?_ fits,
      fun _ => ⟨before, after, bareKinds, directedKinds⟩⟩
    rw [bareKinds, directedKinds]
    intro same
    cases List.append_cancel_left same

/-- A number that fits is judged by its value, behind as many zeros as there may be. -/
theorem assemble_directed_padded :
    IsSigned "+000000000001000".toList 1000 ∧
      (assemble (String.ofList ("HLT\n".toList ++ ("DAT ".toList ++ "+000000000001000".toList)
        ++ "\r\n5".toList))).kinds = [(2, .valueOutOfRange)] := by
  have number : IsSigned "+000000000001000".toList 1000 :=
    @IsSigned.plus "000000000001000".toList ⟨by decide, List.all_eq_true.1 rfl⟩
  obtain ⟨-, same, -⟩ :=
    @assemble_directed "HLT\n".toList _ "\r\n5".toList 1000 (.inr rfl) (.return _) number
  exact ⟨number, (same.2 (by decide)).trans (by decide +kernel)⟩

/-- The least number that does not fit: the two spellings are different errors. -/
theorem assemble_directed_unfitting :
    IsSigned "2147483648".toList 2147483648 ∧ (assemble "2147483648").kinds = [(1, .unknownMnemonic)] ∧
      (assemble "DAT 2147483648").kinds = [(1, .invalidLiteral)] :=
  ⟨@IsSigned.unsigned "2147483648".toList ⟨by decide, List.all_eq_true.1 rfl⟩, by decide +kernel,
    by decide +kernel⟩

end DecimalMachine
