/-
# Layout makes no difference

A line is read by the tokens in front of its comment and by nothing else (`Statement.outcome_eq`), and
letters count the same in both cases. So what a text is assembled into does not depend on how it is laid out:

| rewriting of a line | tokens in front of the comment |
| --- | --- |
| blanks at an end, other blanks in a gap | the same |
| letters in the other case | in the other case |
| a comment at the end | the same, unless `//` comes behind a `/` |

Line ends are no part of a line, and an empty line at the end of a text is nothing (`Padded`). The program
stays what it is, and so do the lines and kinds of the errors, while an error may quote a token in the other
case or a literal with other blanks in it.
-/

import DecimalMachine.Proofs.Assembly.Joining
import Mathlib.Logic.Relation

namespace DecimalMachine

namespace Text

/-- A line that is laid out in another way. -/
inductive Relaid : List Char → List Char → Prop
  | before {blanks line : List Char} (blank : ∀ c ∈ blanks, isBlank c = true) :
      Relaid line (blanks ++ line)
  | behind {blanks line : List Char} (blank : ∀ c ∈ blanks, isBlank c = true) :
      Relaid line (line ++ blanks)
  | between {left old new right : List Char} (blank : ∀ c ∈ old, isBlank c = true)
      (blank' : ∀ c ∈ new, isBlank c = true) (nonempty : old ≠ []) (nonempty' : new ≠ []) :
      Relaid (left ++ old ++ right) (left ++ new ++ right)
  | letters {line other : List Char} (same : EqIgnoringCase line other) : Relaid line other
  | semicolon {line : List Char} (comment : List Char) : Relaid line (line ++ ';' :: comment)
  | slashes {line : List Char} (apart : line.getLast? ≠ some '/') (comment : List Char) :
      Relaid line (line ++ '/' :: '/' :: comment)

/-- A text that ends a line, with or without a carriage return, or nothing. -/
inductive IsLineEnd : List Char → Prop
  | nothing : IsLineEnd []
  | feed (rest : List Char) : IsLineEnd ('\n' :: rest)
  | return (rest : List Char) : IsLineEnd ('\r' :: '\n' :: rest)

/-- A text that is laid out in another way: in one of its lines, or in its line ends. -/
inductive Reformatted : List Char → List Char → Prop
  | line {front line other after : List Char} (begins : EndsLine front) (ends : IsLineEnd after)
      (feedless : '\n' ∉ line) (feedless' : '\n' ∉ other) (relaid : Relaid line other) :
      Reformatted (front ++ line ++ after) (front ++ other ++ after)
  | returns (text : List Char) : Reformatted text (withReturns text)
  | feed (text : List Char) : Reformatted text (text ++ ['\n'])

end Text

namespace Assembly

open Text

/-! ### Kinds of errors -/

/-- The kind of a cause, without what it quotes. -/
inductive Cause.Kind where
  | unknownMnemonic | invalidOperand | invalidLiteral | valueOutOfRange | trailingToken
  | programTooLarge
  deriving DecidableEq, Repr

/-- The kind of a cause, without what it quotes. -/
def Cause.kind : Cause → Kind
  | unknownMnemonic _ => .unknownMnemonic
  | invalidOperand _ => .invalidOperand
  | invalidLiteral _ => .invalidLiteral
  | valueOutOfRange _ => .valueOutOfRange
  | trailingToken _ => .trailingToken
  | programTooLarge => .programTooLarge

/-- The errors by line and kind, in their order. -/
def kinds (a : Assembly) : List (ℕ × Cause.Kind) := a.errors.map fun e => (e.line, e.cause.kind)

/-- What a line is read as: a statement, none, or the kind of an error. -/
abbrev Outcome := Except Cause.Kind (Option Statement)

namespace Statement

/-- What a line is read as, without what an error quotes. -/
def outcome (line : List Char) : Outcome := (ofLine line).mapError Cause.kind

/-- A statement that was read, without what an error quotes. -/
def brief : Except Cause Statement → Outcome
  | .ok s => .ok (some s)
  | .error cause => .error cause.kind

/-- What a literal is read as, by its number. -/
def literalOutcome : Option Int → Outcome
  | none => .error .invalidLiteral
  | some value => if InWordRange value then .ok (some (data value)) else .error .valueOutOfRange

/-- What tokens are read as. -/
def tokenOutcome : List (List Char) → Outcome
  | [] => .ok none
  | first :: others =>
    if first.head? = some '*' then .ok (some (origin (soleNumeral? (dropMark (first :: others)))))
    else if isDataDirective first then
      if others = [] then .ok (some (data 0)) else literalOutcome (soleNumeral? others)
    else if (soleNumeral? (first :: others)).isSome then
      literalOutcome (soleNumeral? (first :: others))
    else brief (ofTokens first others)

/-! ### A line is read by its tokens -/

/-- What is found under `some` has the same brief. -/
theorem mapError_map_some (x : Except Cause Statement) :
    (x.map some).mapError Cause.kind = brief x := by
  cases x <;> rfl

/-- The brief of a literal depends on what number it is. -/
theorem brief_ofLiteral (literal : List Char) :
    brief (ofLiteral literal) = literalOutcome (numeral? literal) := by
  unfold ofLiteral
  cases numeral? literal with
  | none => rfl
  | some value =>
    rw [literalOutcome]
    dsimp only
    split <;> rfl

/-- The brief of a text depends on its tokens. -/
theorem mapError_ofText (body : List Char) :
    (ofText (trim body)).mapError Cause.kind = tokenOutcome (tokens body) := by
  have head := (trimmed_trim body).head
  have last := (trimmed_trim body).last
  have again : trim (trim body) = trim body := (trimmed_iff.1 (trimmed_self head last)).symm
  have row : tokens (trim body) = tokens body := tokens_trim body
  generalize trim body = text at head again row
  rw [← row]
  cases split : tokens text with
  | nil =>
    rw [← again, trim_eq_nil_iff.2 split]
    rfl
  | cons first others =>
    have initial := head?_of_tokens head split
    by_cases marked : text.head? = some '*'
    · obtain ⟨target, rfl⟩ := List.head?_eq_some_iff.1 marked
      have own : soleNumeral? (dropMark (first :: others)) = numeral? (trim target) := by
        rw [← split, tokens_dropMark (head '*' rfl), numeral?_trim]
      rw [tokenOutcome, if_pos (initial.trans marked), own]
      rfl
    · have number : numeral? text = soleNumeral? (first :: others) := by
        rw [← split, ← numeral?_trim, again]
      have behind := tokens_drop_length head split
      have unmarked : ¬ first.head? = some '*' := by
        rw [initial]
        exact marked
      rw [ofText_of_tokenised marked (tokenised_iff.2 split.symm), tokenOutcome, if_neg unmarked,
        number]
      by_cases directive : isDataDirective first = true
      · rw [if_pos directive, if_pos directive]
        by_cases alone : others = []
        · rw [if_pos (trim_eq_nil_iff.2 (behind.trans alone)), if_pos alone]
          rfl
        · have literal : trim (text.drop first.length) ≠ [] := fun empty =>
            alone (behind.symm.trans (trim_eq_nil_iff.1 empty))
          rw [if_neg literal, if_neg alone, mapError_map_some, brief_ofLiteral, numeral?_trim, behind]
      · rw [if_neg directive, if_neg directive]
        split
        · rw [mapError_map_some, brief_ofLiteral, number]
        · exact mapError_map_some _

/-- **A line is read by the tokens in front of its comment.** -/
theorem outcome_eq (line : List Char) : outcome line = tokenOutcome (tokens (withoutComment line)) :=
  mapError_ofText (withoutComment line)

/-! ### Letters -/

/-- The mark of data has no case. -/
theorem isDataDirective_map_toUpper (token : List Char) :
    isDataDirective (token.map Char.toUpper) = isDataDirective token := by
  have twice : Char.toUpper ∘ Char.toUpper = Char.toUpper := funext toUpper_toUpper
  rw [isDataDirective, List.map_map, twice, isDataDirective]

/-- Mnemonics have no case. -/
theorem ofMnemonic?_map_toUpper (token : List Char) :
    Opcode.ofMnemonic? (token.map Char.toUpper) = Opcode.ofMnemonic? token := by
  have twice : Char.toUpper ∘ Char.toUpper = Char.toUpper := funext toUpper_toUpper
  rw [Opcode.ofMnemonic?, List.map_map, twice, Opcode.ofMnemonic?]

/-- The brief of an instruction has no case. -/
theorem brief_ofTokens_map_toUpper (first : List Char) (others : List (List Char)) :
    brief (ofTokens (first.map Char.toUpper) (others.map (List.map Char.toUpper))) =
      brief (ofTokens first others) := by
  unfold ofTokens
  rw [ofMnemonic?_map_toUpper]
  cases Opcode.ofMnemonic? first with
  | none => rfl
  | some op =>
    rcases others with _ | ⟨token, rest⟩
    · rfl
    simp only [List.map_cons, numeral?_map_toUpper]
    cases numeral? token with
    | none => rfl
    | some operand => cases rest <;> rfl

/-- **Tokens are read alike in both cases.** -/
theorem tokenOutcome_map_toUpper (row : List (List Char)) :
    tokenOutcome (row.map (List.map Char.toUpper)) = tokenOutcome row := by
  rcases row with _ | ⟨first, others⟩
  · rfl
  have marked : (first.map Char.toUpper).head? = some '*' ↔ first.head? = some '*' := by
    cases first with
    | nil => exact Iff.rfl
    | cons c rest =>
      rw [List.map_cons, List.head?_cons, List.head?_cons, Option.some_inj, Option.some_inj]
      exact toUpper_eq_iff (by decide)
  have number := soleNumeral?_map_toUpper (first :: others)
  have target := dropMark_map_toUpper (first :: others)
  rw [List.map_cons] at number target
  rw [List.map_cons, tokenOutcome, tokenOutcome, number, target, soleNumeral?_map_toUpper,
    soleNumeral?_map_toUpper, isDataDirective_map_toUpper, brief_ofTokens_map_toUpper]
  simp only [marked, List.map_eq_nil_iff]

/-! ### A line in another layout -/

/-- **Lines that differ in case have one outcome.** -/
theorem outcome_of_eqIgnoringCase {line other : List Char} (h : EqIgnoringCase line other) :
    outcome other = outcome line := by
  have upper (line : List Char) : outcome (line.map Char.toUpper) = outcome line := by
    rw [outcome_eq, withoutComment_map_toUpper, tokens_map_toUpper, tokenOutcome_map_toUpper,
      ← outcome_eq]
  rw [← upper other, ← upper line, h]

/-- What a line keeps in front of its comment, if there is a gap in it. -/
theorem withoutComment_gap {blanks : List Char} (blank : ∀ c ∈ blanks, isBlank c = true)
    (nonempty : blanks ≠ []) (left right : List Char) :
    withoutComment (left ++ blanks ++ right) =
      if withoutComment left = left then left ++ blanks ++ withoutComment right
      else withoutComment left := by
  have first : (blanks ++ right).head? ≠ some '/' := by
    rw [List.head?_append_of_ne_nil _ nonempty]
    exact head?_ne_slash_of_blanks blank
  rw [List.append_assoc, withoutComment_append (.inr first), withoutComment_blanks_append blank,
    List.append_assoc]

/-- **A line is read alike in another layout.** -/
theorem outcome_of_relaid {line other : List Char} (h : Relaid line other) :
    outcome other = outcome line := by
  cases h with
  | before blank =>
    rw [outcome_eq, outcome_eq, withoutComment_blanks_append blank, tokens_blanks_append blank]
  | behind blank =>
    rw [outcome_eq, outcome_eq, withoutComment_append_of_blanks blank]
    split
    · next whole => rw [tokens_append_of_blanks blank, whole]
    · rfl
  | between blank blank' nonempty nonempty' =>
    rw [outcome_eq, outcome_eq, withoutComment_gap blank nonempty, withoutComment_gap blank' nonempty']
    split
    · rw [tokens_append_blanks blank nonempty, tokens_append_blanks blank' nonempty']
    · rfl
  | letters same => exact outcome_of_eqIgnoringCase same
  | semicolon comment =>
    rw [outcome_eq, outcome_eq,
      withoutComment_append_comment (startsComment_semicolon comment) (.inr (by simp))]
  | slashes apart comment =>
    rw [outcome_eq, outcome_eq,
      withoutComment_append_comment (startsComment_slashes comment) (.inl apart)]

/-- Behind a `/`, a comment begins one character before its `//`, so that less is left of the line. -/
example : outcome "LDA /".toList = .error .invalidOperand ∧
    outcome "LDA /// x".toList = .ok (some (.instruction ⟨.load, 0⟩)) := ⟨rfl, rfl⟩

/-- A carriage return at the end makes no difference to the outcome. -/
theorem outcome_withoutReturn (line : List Char) : outcome (withoutReturn line) = outcome line := by
  rw [outcome, ofLine_withoutReturn, outcome]

end Statement

/-! ### A text in another layout -/

/-- What the lines of a text are read as. -/
def outcomes (text : List Char) : List Outcome := (lines text).map Statement.outcome

/-- Two rows of outcomes that differ at most in blank lines at the end. -/
def Padded (a b : List Outcome) : Prop :=
  ∃ m n, a ++ List.replicate m (.ok none) = b ++ List.replicate n (.ok none)

namespace Padded

variable {a b c : List Outcome}

/-- A row of outcomes does not differ from itself. -/
protected theorem refl (a : List Outcome) : Padded a a := ⟨0, 0, rfl⟩

/-- Either of two rows can be the first. -/
protected theorem symm (h : Padded a b) : Padded b a := by
  obtain ⟨m, n, same⟩ := h
  exact ⟨n, m, same.symm⟩

/-- Rows that differ at most so from a third one differ at most so from one another. -/
protected theorem trans (h : Padded a b) (k : Padded b c) : Padded a c := by
  obtain ⟨m, n, hab⟩ := h
  obtain ⟨m', n', hbc⟩ := k
  refine ⟨m + m', n' + n, ?_⟩
  rw [← List.replicate_append_replicate, ← List.replicate_append_replicate, ← List.append_assoc, hab,
    ← List.append_assoc, ← hbc, List.append_assoc, List.append_assoc, List.replicate_append_replicate,
    List.replicate_append_replicate, Nat.add_comm]

/-- The same outcomes can be put in front of both. -/
theorem append_left (front : List Outcome) (h : Padded a b) : Padded (front ++ a) (front ++ b) := by
  obtain ⟨m, n, same⟩ := h
  exact ⟨m, n, by rw [List.append_assoc, same, List.append_assoc]⟩

end Padded

/-- The outcomes of a text are those of its parts, if the first one ends a line. -/
theorem outcomes_append {front : List Char} (h : EndsLine front) (text : List Char) :
    outcomes (front ++ text) = outcomes front ++ outcomes text := by
  rw [outcomes, h.lines_append, List.map_append]
  rfl

/-- The outcome of the first line comes first. -/
theorem outcomes_append_feed {line : List Char} (h : '\n' ∉ line) (rest : List Char) :
    outcomes (line ++ '\n' :: rest) = Statement.outcome line :: outcomes rest := by
  rw [outcomes, lines_append_feed h, List.map_cons, Statement.outcome_withoutReturn]
  rfl

/-- A last line without a line feed is a line, or it is blank. -/
theorem padded_outcomes {line : List Char} (h : '\n' ∉ line) :
    Padded (outcomes line) [Statement.outcome line] := by
  rw [outcomes, lines_of_feedless h]
  split
  · next empty =>
    subst empty
    exact ⟨1, 0, rfl⟩
  · exact .refl _

/-- Whatever ends a line, its outcome comes first, and what follows does not depend on the line. -/
theorem exists_outcomes_behind {after : List Char} (ends : IsLineEnd after) :
    ∃ behind, ∀ line, '\n' ∉ line →
      Padded (outcomes (line ++ after)) (Statement.outcome line :: behind) := by
  cases ends with
  | nothing =>
    refine ⟨[], fun line feedless => ?_⟩
    rw [List.append_nil]
    exact padded_outcomes feedless
  | feed rest =>
    refine ⟨outcomes rest, fun line feedless => ?_⟩
    rw [outcomes_append_feed feedless]
    exact .refl _
  | «return» rest =>
    refine ⟨outcomes rest, fun line feedless => ?_⟩
    have feedless' : '\n' ∉ line ++ ['\r'] := by simp [feedless]
    rw [List.append_cons, outcomes_append_feed feedless', ← Statement.outcome_withoutReturn,
      withoutReturn_append_return]
    exact .refl _

/-- What stands around a line has the same outcomes, whatever is written on the line. -/
theorem exists_outcomes_around {front after : List Char} (begins : EndsLine front)
    (ends : IsLineEnd after) :
    ∃ behind, ∀ line, '\n' ∉ line →
      Padded (outcomes (front ++ line ++ after)) (outcomes front ++ Statement.outcome line :: behind) := by
  obtain ⟨behind, row⟩ := exists_outcomes_behind ends
  refine ⟨behind, fun line feedless => ?_⟩
  rw [List.append_assoc, outcomes_append begins]
  exact (row line feedless).append_left _

/-- **A text in another layout has the same outcomes**, but for blank lines at the end. -/
theorem padded_of_reformatted {text other : List Char} (h : Reformatted text other) :
    Padded (outcomes text) (outcomes other) := by
  cases h with
  | returns =>
    rw [outcomes, outcomes, lines_withReturns]
    exact .refl _
  | feed =>
    obtain ⟨front, line, rfl, begins, feedless⟩ := exists_last_line text
    rw [List.append_assoc, outcomes_append begins, outcomes_append begins,
      outcomes_append_feed feedless]
    exact (padded_outcomes feedless).append_left _
  | @line front line other after begins ends feedless feedless' relaid =>
    obtain ⟨behind, row⟩ := exists_outcomes_around begins ends
    refine (row line feedless).trans ?_
    rw [← Statement.outcome_of_relaid relaid]
    exact (row other feedless').symm

/-! ### Programs and errors by outcomes -/

/-- What is found in a row of outcomes, by their line numbers. -/
def found {β : Type} (find : ℕ → Outcome → Option β) (row : List Outcome) : List β :=
  (row.zipIdx 1).filterMap fun (outcome, number) => find number outcome

/-- On blank lines at the end there is nothing to be found. -/
theorem found_of_padded {β : Type} {find : ℕ → Outcome → Option β}
    (quiet : ∀ number, find number (.ok none) = none) {a b : List Outcome} (h : Padded a b) :
    found find a = found find b := by
  have dropped (row : List Outcome) (n : ℕ) :
      found find (row ++ List.replicate n (.ok none)) = found find row := by
    have nothing : ((List.replicate n (.ok none)).zipIdx (1 + row.length)).filterMap
        (fun (outcome, number) => find number outcome) = [] := by
      refine List.filterMap_eq_nil_iff.2 fun (outcome, number) member => ?_
      obtain rfl : outcome = .ok none :=
        List.eq_of_mem_replicate (List.fst_mem_of_mem_zipIdx member)
      exact quiet number
    rw [found, List.zipIdx_append, List.filterMap_append, nothing, List.append_nil, found]
  obtain ⟨m, n, same⟩ := h
  rw [← dropped a m, same, dropped]

/-- The statement on a line. -/
def statementOf (number : ℕ) : Outcome → Option (Located Statement)
  | .ok (some s) => some ⟨number, s⟩
  | _ => none

/-- The error of a line. -/
def kindOf (number : ℕ) : Outcome → Option (ℕ × Cause.Kind)
  | .error kind => some (number, kind)
  | .ok _ => none

/-- Statements are found in the outcomes. -/
theorem statements_eq_found (lines : List (List Char)) :
    (ofLines lines).statements = found statementOf (lines.map Statement.outcome) := by
  rw [statements_ofLines, readLines, found, List.zipIdx_map, List.filterMap_map, List.filterMap_map]
  refine List.filterMap_congr ?_
  rintro ⟨line, number⟩ -
  simp only [Function.comp, Prod.map, id, Statement.outcome]
  rcases Statement.ofLine line with cause | _ | s <;> rfl

/-- The kinds of the errors of reading are found in the outcomes. -/
theorem readKinds_eq_found (lines : List (List Char)) :
    (ofLines lines).readErrors.map (fun e => (e.line, e.cause.kind)) =
      found kindOf (lines.map Statement.outcome) := by
  rw [readErrors_ofLines, readLines, found, List.zipIdx_map, List.filterMap_map, List.filterMap_map,
    List.map_filterMap]
  refine List.filterMap_congr ?_
  rintro ⟨line, number⟩ -
  simp only [Function.comp, Prod.map, id, Statement.outcome]
  rcases Statement.ofLine line with cause | s <;> rfl

/-- **The outcomes of lines decide the program and the kinds of its errors.** -/
theorem eq_of_padded {rows others : List (List Char)}
    (h : Padded (rows.map Statement.outcome) (others.map Statement.outcome)) :
    (ofLines others).program = (ofLines rows).program ∧
      (ofLines others).kinds = (ofLines rows).kinds := by
  have statements : (ofLines others).statements = (ofLines rows).statements := by
    rw [statements_eq_found, statements_eq_found, found_of_padded (fun _ => rfl) h]
  have placements : (ofLines others).placements = (ofLines rows).placements :=
    congrArg (place 0) statements
  refine ⟨by rw [program, placements, program], ?_⟩
  rw [kinds, kinds, errors, errors, List.map_append, List.map_append, readKinds_eq_found,
    readKinds_eq_found, found_of_padded (fun _ => rfl) h, placeErrors, placements, placeErrors]

end Assembly

/-- **Layout makes no difference to what is assembled.** A text that is laid out in another way, in any
number of its lines and in any number of ways, is assembled into the same program, with errors of the same
kinds on the same lines and in the same order. -/
theorem assemble_of_reformatted {source other : String}
    (h : Relation.ReflTransGen Text.Reformatted source.toList other.toList) :
    (assemble other).program = (assemble source).program ∧
      (assemble other).kinds = (assemble source).kinds := by
  have padded : ∀ {text}, Relation.ReflTransGen Text.Reformatted source.toList text →
      Assembly.Padded (Assembly.outcomes source.toList) (Assembly.outcomes text) := by
    intro text h
    induction h with
    | refl => exact .refl _
    | tail _ step ih => exact ih.trans (Assembly.padded_of_reformatted step)
  exact Assembly.eq_of_padded (padded h)

/-- An instruction, and a line with an error. -/
def sloppy : String := "lda  3\ndat\t1000 9"

/-- The same in another layout. -/
def tidy : String := "LDA 3\r\ndat\t1000 9// too much\r\n"

/-- Neither case, blanks and line ends nor a comment matter, and the error stays on its line. -/
theorem assemble_of_reformatted_sloppy :
    Relation.ReflTransGen Text.Reformatted sloppy.toList tidy.toList ∧
      (assemble tidy).program.entries = [.ofInstruction 0 ⟨.load, 3⟩ 1] ∧
      (assemble tidy).kinds = [(2, .invalidLiteral)] := by
  have letters : Text.Relaid "lda  3".toList "LDA  3".toList := by
    refine .letters ?_
    unfold EqIgnoringCase
    decide
  have gap : Text.Relaid "LDA  3".toList "LDA 3".toList :=
    @Text.Relaid.between "LDA".toList "  ".toList " ".toList "3".toList (List.all_eq_true.1 rfl)
      (List.all_eq_true.1 rfl) (by decide) (by decide)
  have comment : Text.Relaid "dat\t1000 9".toList "dat\t1000 9// too much".toList :=
    .slashes (by decide) " too much".toList
  have first {line other : List Char} (feedless : '\n' ∉ line) (feedless' : '\n' ∉ other)
      (relaid : Text.Relaid line other) :
      Text.Reformatted (line ++ "\ndat\t1000 9".toList) (other ++ "\ndat\t1000 9".toList) :=
    @Text.Reformatted.line [] line other _ (.inl rfl) (.feed _) feedless feedless' relaid
  have second : Text.Reformatted "LDA 3\ndat\t1000 9".toList "LDA 3\ndat\t1000 9// too much".toList :=
    @Text.Reformatted.line "LDA 3\n".toList _ _ [] (.inr rfl) .nothing (by decide) (by decide) comment
  have steps : Relation.ReflTransGen Text.Reformatted sloppy.toList
      "LDA 3\r\ndat\t1000 9// too much".toList :=
    (((Relation.ReflTransGen.single (first (by decide) (by decide) letters)).tail
      (first (by decide) (by decide) gap)).tail second).tail (.returns _)
  have reformatted : Relation.ReflTransGen Text.Reformatted sloppy.toList tidy.toList :=
    (steps.tail (.feed _)).tail (.returns _)
  obtain ⟨program, kinds⟩ := assemble_of_reformatted reformatted
  refine ⟨reformatted, ?_, kinds.trans (by decide +kernel)⟩
  rw [program]
  decide +kernel

end DecimalMachine
