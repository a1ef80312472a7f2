/-
# The grammar of a source line

A line is read in two steps, each of them described here by a relation. First the line is given a form;
the first row that applies counts:

| form | the line, without its comment and trimmed |
| --- | --- |
| `blank` | is empty |
| `origin target` | is `*` and, around blanks, `target` |
| `data literal` | begins with the token `DAT` in any case; `literal` follows, around blanks |
| `number value` | is a numeral for `value` |
| `instruction mnemonic others` | is anything else, with these tokens |

Then the form decides the outcome: a statement, none, or the cause of one error.

Route: a line fits a form, a form has an outcome, and a line of a form with an outcome is read with that
outcome. So the outcome of a line is the one that the grammar gives it, and there is no other.
-/

import DecimalMachine.Assembly.Statement
import DecimalMachine.Proofs.Text.Layout
import DecimalMachine.Proofs.Text.Numerals
import Mathlib.Data.List.Nodup
import Mathlib.Data.List.Pairwise

namespace DecimalMachine

open Text

/-! ### The grammar -/

/-- Two texts that differ at most in the case of ASCII letters. -/
def EqIgnoringCase (a b : List Char) : Prop := a.map Char.toUpper = b.map Char.toUpper

/-- A token that is, in upper case, one of the spellings of an opcode. -/
def Spells (token : List Char) (op : Opcode) : Prop :=
  ∃ spelling ∈ op.mnemonics, token.map Char.toUpper = spelling.toList

/-- The operand field that an instruction gets for an operand; `IN` and `OUT` have no such field. -/
def OperandField (op : Opcode) (operand : Int) (field : Nat) : Prop :=
  if op = .input ∨ op = .output then field = 0 else (field : Int) = operand % 100

namespace Assembly

/-- The form of a line, with the parts that its statement is read from. -/
inductive Form where
  | blank
  | origin (target : List Char)
  | data (literal : List Char)
  | number (value : Int)
  | instruction (mnemonic : List Char) (others : List (List Char))

/-- The form of a trimmed text without a comment. -/
inductive HasForm (text : List Char) : Form → Prop
  | blank (h : text = []) : HasForm text .blank
  | origin {rest target : List Char} (h : text = '*' :: rest) (trimmed : Trimmed rest target) :
      HasForm text (.origin target)
  | data {first rest literal : List Char} {others : List (List Char)}
      (unmarked : text.head? ≠ some '*') (tokens : Tokenised text (first :: others))
      (directive : EqIgnoringCase first ['D', 'A', 'T']) (follows : text = first ++ rest)
      (trimmed : Trimmed rest literal) : HasForm text (.data literal)
  | number {first : List Char} {others : List (List Char)} {value : Int}
      (unmarked : text.head? ≠ some '*') (tokens : Tokenised text (first :: others))
      (coded : ¬ EqIgnoringCase first ['D', 'A', 'T']) (numeral : IsNumeral text value) :
      HasForm text (.number value)
  | instruction {first : List Char} {others : List (List Char)}
      (unmarked : text.head? ≠ some '*') (tokens : Tokenised text (first :: others))
      (coded : ¬ EqIgnoringCase first ['D', 'A', 'T']) (worded : ∀ value, ¬ IsNumeral text value) :
      HasForm text (.instruction first others)

/-- What a form is read as: a statement, none, or the cause of an error. -/
inductive Form.Reads : Form → Except Cause (Option Statement) → Prop
  | blank : Reads .blank (.ok none)
  | origin {target : List Char} {value : Int} (numeral : IsNumeral target value) :
      Reads (.origin target) (.ok (some (.origin (some value))))
  | originWithoutTarget {target : List Char} (worded : ∀ value, ¬ IsNumeral target value) :
      Reads (.origin target) (.ok (some (.origin none)))
  | noLiteral : Reads (.data []) (.ok (some (.data 0)))
  | literal {literal : List Char} {value : Int} (numeral : IsNumeral literal value)
      (fits : InWordRange value) : Reads (.data literal) (.ok (some (.data value)))
  | literalOutOfRange {literal : List Char} {value : Int} (numeral : IsNumeral literal value)
      (big : ¬ InWordRange value) : Reads (.data literal) (.error (.valueOutOfRange value))
  | invalidLiteral {literal : List Char} (nonempty : literal ≠ [])
      (worded : ∀ value, ¬ IsNumeral literal value) :
      Reads (.data literal) (.error (.invalidLiteral (String.ofList literal)))
  | number {value : Int} (fits : InWordRange value) :
      Reads (.number value) (.ok (some (.data value)))
  | numberOutOfRange {value : Int} (big : ¬ InWordRange value) :
      Reads (.number value) (.error (.valueOutOfRange value))
  | bare {first : List Char} {op : Opcode} (spells : Spells first op) :
      Reads (.instruction first []) (.ok (some (.instruction ⟨op, 0⟩)))
  | operand {first token : List Char} {op : Opcode} {value : Int} {field : Nat}
      (spells : Spells first op) (numeral : IsNumeral token value)
      (reduced : OperandField op value field) :
      Reads (.instruction first [token]) (.ok (some (.instruction ⟨op, field⟩)))
  | unknownMnemonic {first : List Char} {others : List (List Char)}
      (unknown : ∀ op, ¬ Spells first op) :
      Reads (.instruction first others) (.error (.unknownMnemonic (String.ofList first)))
  | invalidOperand {first token : List Char} {others : List (List Char)} {op : Opcode}
      (spells : Spells first op) (worded : ∀ value, ¬ IsNumeral token value) :
      Reads (.instruction first (token :: others)) (.error (.invalidOperand (String.ofList token)))
  | trailingToken {first token extra : List Char} {others : List (List Char)} {op : Opcode}
      {value : Int} (spells : Spells first op) (numeral : IsNumeral token value) :
      Reads (.instruction first (token :: extra :: others))
        (.error (.trailingToken (String.ofList extra)))

/-- The grammar: what a source line is read as. -/
def Grammar (line : List Char) (outcome : Except Cause (Option Statement)) : Prop :=
  ∃ body text form, Uncommented line body ∧ Trimmed body text ∧ HasForm text form ∧
    form.Reads outcome

end Assembly

/-! ### Spellings -/

namespace Opcode

/-- The list of opcodes is complete. -/
theorem mem_all (op : Opcode) : op ∈ all := by
  cases op <;> decide

/-- No spelling belongs to two opcodes. -/
theorem eq_of_mem_mnemonics {op other : Opcode} {spelling : String} (h : spelling ∈ op.mnemonics)
    (hother : spelling ∈ other.mnemonics) : op = other := by
  by_contra different
  have apart := (List.nodup_flatMap.1 mnemonics_nodup).2
  have symmetric : Std.Symm (Function.onFun List.Disjoint mnemonics) := ⟨fun _ _ h _ hb ha => h ha hb⟩
  exact apart.forall (mem_all op) (mem_all other) different h hother

end Opcode

/-- A token spells one opcode at most. -/
theorem Spells.unique {token : List Char} {op other : Opcode} (h : Spells token op)
    (hother : Spells token other) : op = other := by
  obtain ⟨spelling, hmem, hspelling⟩ := h
  obtain ⟨spelling', hmem', hspelling'⟩ := hother
  obtain rfl : spelling = spelling' := String.toList_injective (hspelling.symm.trans hspelling')
  exact Opcode.eq_of_mem_mnemonics hmem hmem'

/-- Mnemonics are in capitals. -/
theorem map_toUpper_of_mem_mnemonics {op : Opcode} {spelling : String} (h : spelling ∈ op.mnemonics) :
    spelling.toList.map Char.toUpper = spelling.toList := by
  have upper : ∀ op : Opcode, ∀ spelling ∈ op.mnemonics,
      spelling.toList.map Char.toUpper = spelling.toList := by
    rintro ⟨⟩ <;> decide
  exact upper op spelling h

/-- A mnemonic in any case spells its opcode. -/
theorem spells_of_eqIgnoringCase {token : List Char} {op : Opcode} {spelling : String}
    (h : spelling ∈ op.mnemonics) (same : EqIgnoringCase token spelling.toList) : Spells token op :=
  ⟨spelling, h, same.trans (map_toUpper_of_mem_mnemonics h)⟩

/-- The look-up of a spelling is a look-up in the list of the opcode. -/
theorem contains_ofList_iff {token : List Char} {op : Opcode} :
    op.mnemonics.contains (String.ofList (token.map Char.toUpper)) = true ↔ Spells token op := by
  rw [List.contains_iff_mem]
  constructor
  · intro h
    exact ⟨_, h, String.toList_ofList.symm⟩
  · rintro ⟨spelling, h, hspelling⟩
    rw [hspelling, String.ofList_toList]
    exact h

/-- What is found for a token is what it spells. -/
theorem spells_of_ofMnemonic? {token : List Char} {op : Opcode}
    (h : Opcode.ofMnemonic? token = some op) : Spells token op := by
  have found := List.find?_some h
  exact contains_ofList_iff.1 found

/-- An opcode is found exactly for a token that spells it. -/
theorem ofMnemonic?_eq_some_iff {token : List Char} {op : Opcode} :
    Opcode.ofMnemonic? token = some op ↔ Spells token op := by
  constructor
  · exact spells_of_ofMnemonic?
  · intro h
    rcases found : Opcode.ofMnemonic? token with _ | other
    · have none := List.find?_eq_none.1 found op (Opcode.mem_all op)
      exact absurd (contains_ofList_iff.2 h) none
    · rw [h.unique (spells_of_ofMnemonic? found)]

/-- For a token that spells none, none is found. -/
theorem ofMnemonic?_eq_none {token : List Char} (h : ∀ op, ¬ Spells token op) :
    Opcode.ofMnemonic? token = none :=
  Option.eq_none_iff_forall_ne_some.2 fun op hop => h op (ofMnemonic?_eq_some_iff.1 hop)

/-- The mark of data is recognised in any case. -/
theorem isDataDirective_iff {token : List Char} :
    Assembly.Statement.isDataDirective token = true ↔ EqIgnoringCase token ['D', 'A', 'T'] :=
  beq_iff_eq

/-- The field is that of the instruction with its operand reduced. -/
theorem OperandField.ofOperand_eq {op : Opcode} {value : Int} {field : Nat}
    (h : OperandField op value field) : Instruction.ofOperand op value = ⟨op, field⟩ := by
  unfold OperandField at h
  split at h
  · next full =>
    rcases full with rfl | rfl <;> rw [h] <;> rfl
  · next full =>
    have hfield : op.isFullWord = false := by
      cases op <;> first | rfl | exact absurd (by decide) full
    rw [Instruction.ofOperand, hfield]
    congr 1
    rw [if_neg Bool.false_ne_true]
    unfold memorySize
    omega

/-- Without an operand the field is zero. -/
theorem operandField_zero (op : Opcode) : OperandField op 0 0 := by
  unfold OperandField
  split <;> rfl

/-- Every value has a field. -/
theorem exists_operandField (op : Opcode) (value : Int) : ∃ field, OperandField op value field := by
  unfold OperandField
  split
  · exact ⟨0, rfl⟩
  · exact ⟨(value % 100).toNat, by omega⟩

namespace Assembly

/-! ### A line fits a form -/

/-- A trimmed text that is not empty begins with its first token. -/
theorem exists_tokenised {body text : List Char} (h : Trimmed body text) (nonempty : text ≠ []) :
    ∃ first others rest, Tokenised text (first :: others) ∧ text = first ++ rest := by
  obtain ⟨c, tail, rfl⟩ := List.exists_cons_of_ne_nil nonempty
  have solid : isBlank c ≠ true := by
    rw [h.head c rfl]
    exact Bool.false_ne_true
  have tokenised : Tokenised (c :: tail) (tokens (c :: tail)) := tokenised_iff.2 rfl
  rcases hsplit : tokens (c :: tail) with _ | ⟨first, others⟩
  · rw [hsplit] at tokenised
    exact absurd (tokenised.blank_of_nil c List.mem_cons_self) solid
  · rw [hsplit] at tokenised
    obtain ⟨left, rest, hparts, blanks⟩ := tokenised.exists_parts
    refine ⟨first, others, rest, tokenised, ?_⟩
    -- A blank before the first token would be the first character of the text.
    rcases left with _ | ⟨d, left⟩
    · exact hparts
    · obtain rfl : c = d := (List.cons.inj hparts).1
      exact absurd (blanks c List.mem_cons_self) solid

/-- The forms are tried in their order, so that each one is met where all before it were not. -/
theorem exists_hasForm {body text : List Char} (h : Trimmed body text) : ∃ form, HasForm text form := by
  by_cases empty : text = []
  · exact ⟨.blank, .blank empty⟩
  by_cases marked : text.head? = some '*'
  · obtain ⟨rest, rfl⟩ := List.head?_eq_some_iff.1 marked
    exact ⟨.origin (trim rest), .origin rfl (trimmed_trim rest)⟩
  obtain ⟨first, others, rest, tokenised, follows⟩ := exists_tokenised h empty
  by_cases directive : EqIgnoringCase first ['D', 'A', 'T']
  · exact ⟨.data (trim rest), .data marked tokenised directive follows (trimmed_trim rest)⟩
  rcases Classical.em (∃ value, IsNumeral text value) with ⟨value, numeral⟩ | worded
  · exact ⟨.number value, .number marked tokenised directive numeral⟩
  · exact ⟨.instruction first others, .instruction marked tokenised directive (not_exists.1 worded)⟩

/-! ### A form has an outcome -/

/-- Every literal has an outcome. -/
theorem exists_reads_data (literal : List Char) : ∃ outcome, (Form.data literal).Reads outcome := by
  by_cases empty : literal = []
  · subst empty
    exact ⟨_, .noLiteral⟩
  rcases Classical.em (∃ value, IsNumeral literal value) with ⟨value, numeral⟩ | worded
  · by_cases fits : InWordRange value
    · exact ⟨_, .literal numeral fits⟩
    · exact ⟨_, .literalOutOfRange numeral fits⟩
  · exact ⟨_, .invalidLiteral empty (not_exists.1 worded)⟩

/-- Every other row of tokens has one. -/
theorem exists_reads_instruction (first : List Char) (others : List (List Char)) :
    ∃ outcome, (Form.instruction first others).Reads outcome := by
  rcases Classical.em (∃ op, Spells first op) with ⟨op, spells⟩ | unknown
  · rcases others with _ | ⟨token, rest⟩
    · exact ⟨_, .bare spells⟩
    rcases Classical.em (∃ value, IsNumeral token value) with ⟨value, numeral⟩ | worded
    · rcases rest with _ | ⟨extra, rest⟩
      · obtain ⟨field, reduced⟩ := exists_operandField op value
        exact ⟨_, .operand spells numeral reduced⟩
      · exact ⟨_, .trailingToken spells numeral⟩
    · exact ⟨_, .invalidOperand spells (not_exists.1 worded)⟩
  · exact ⟨_, .unknownMnemonic (not_exists.1 unknown)⟩

/-- Every form of a line has an outcome. -/
theorem Form.exists_reads (form : Form) : ∃ outcome, form.Reads outcome := by
  cases form with
  | blank => exact ⟨_, .blank⟩
  | origin target =>
    rcases Classical.em (∃ value, IsNumeral target value) with ⟨value, numeral⟩ | worded
    · exact ⟨_, .origin numeral⟩
    · exact ⟨_, .originWithoutTarget (not_exists.1 worded)⟩
  | data literal => exact exists_reads_data literal
  | number value =>
    by_cases fits : InWordRange value
    · exact ⟨_, .number fits⟩
    · exact ⟨_, .numberOutOfRange fits⟩
  | instruction first others => exact exists_reads_instruction first others

/-! ### Reading follows the form -/

namespace Statement

/-- A numeral is a word, or out of range. -/
theorem ofLiteral_of_isNumeral {literal : List Char} {value : Int} (h : IsNumeral literal value) :
    ofLiteral literal =
      if InWordRange value then .ok (data value) else .error (.valueOutOfRange value) := by
  rw [ofLiteral, numeral?_eq_some_iff.2 h]

/-- Anything else is no literal. -/
theorem ofLiteral_of_not_isNumeral {literal : List Char} (h : ∀ value, ¬ IsNumeral literal value) :
    ofLiteral literal = .error (.invalidLiteral (String.ofList literal)) := by
  rw [ofLiteral, numeral?_eq_none_iff.2 h]

/-- The reading of a text whose first token decides. -/
theorem ofText_of_tokenised {text first : List Char} {others : List (List Char)}
    (unmarked : text.head? ≠ some '*') (h : Tokenised text (first :: others)) :
    ofText text =
      if isDataDirective first then
        if trim (text.drop first.length) = [] then .ok (some (data 0))
        else (ofLiteral (trim (text.drop first.length))).map some
      else if (numeral? text).isSome then (ofLiteral text).map some
      else (ofTokens first others).map some := by
  have hsplit : tokens text = first :: others := (tokenised_iff.1 h).symm
  unfold ofText
  split
  · rw [tokens_nil] at hsplit
    exact absurd hsplit.symm (List.cons_ne_nil first others)
  · exact absurd rfl unmarked
  · rw [hsplit]
    dsimp only
    rcases trim (text.drop first.length) with _ | ⟨c, tail⟩ <;> rfl

/-- What a text after the directive is read as. -/
theorem ofText_of_data {text first rest literal : List Char} {others : List (List Char)}
    {outcome : Except Cause (Option Statement)} (unmarked : text.head? ≠ some '*')
    (h : Tokenised text (first :: others)) (directive : EqIgnoringCase first ['D', 'A', 'T'])
    (follows : text = first ++ rest) (trimmed : Trimmed rest literal)
    (reads : (Form.data literal).Reads outcome) : ofText text = outcome := by
  have hrest : trim (text.drop first.length) = literal := by
    rw [follows, List.drop_left, trimmed_iff.1 trimmed]
  rw [ofText_of_tokenised unmarked h, if_pos (isDataDirective_iff.2 directive), hrest]
  cases reads with
  | noLiteral => rfl
  | literal numeral fits =>
    rw [if_neg numeral.signed.ne_nil, ofLiteral_of_isNumeral numeral, if_pos fits]
    rfl
  | literalOutOfRange numeral big =>
    rw [if_neg numeral.signed.ne_nil, ofLiteral_of_isNumeral numeral, if_neg big]
    rfl
  | invalidLiteral nonempty worded =>
    rw [if_neg nonempty, ofLiteral_of_not_isNumeral worded]
    rfl

/-- A text without the directive is a number as a whole, or an instruction. -/
theorem ofText_of_coded {text first : List Char} {others : List (List Char)}
    (unmarked : text.head? ≠ some '*') (h : Tokenised text (first :: others))
    (coded : ¬ EqIgnoringCase first ['D', 'A', 'T']) :
    ofText text =
      if (numeral? text).isSome then (ofLiteral text).map some
      else (ofTokens first others).map some := by
  rw [ofText_of_tokenised unmarked h, if_neg fun directive => coded (isDataDirective_iff.1 directive)]

/-- What a row of tokens is read as. -/
theorem ofTokens_of_reads {first : List Char} {others : List (List Char)}
    {outcome : Except Cause (Option Statement)} (h : (Form.instruction first others).Reads outcome) :
    (ofTokens first others).map some = outcome := by
  unfold ofTokens
  cases h with
  | bare spells =>
    simp only [ofMnemonic?_eq_some_iff.2 spells, (operandField_zero _).ofOperand_eq]
    rfl
  | operand spells numeral reduced =>
    simp only [ofMnemonic?_eq_some_iff.2 spells, numeral?_eq_some_iff.2 numeral, reduced.ofOperand_eq]
    rfl
  | unknownMnemonic unknown =>
    simp only [ofMnemonic?_eq_none unknown]
    rfl
  | invalidOperand spells worded =>
    simp only [ofMnemonic?_eq_some_iff.2 spells, numeral?_eq_none_iff.2 worded]
    rfl
  | trailingToken spells numeral =>
    simp only [ofMnemonic?_eq_some_iff.2 spells, numeral?_eq_some_iff.2 numeral]
    rfl

/-- A text is read as its form says. -/
theorem ofText_of_hasForm {text : List Char} {form : Form}
    {outcome : Except Cause (Option Statement)} (h : HasForm text form) (reads : form.Reads outcome) :
    ofText text = outcome := by
  cases h with
  | blank empty =>
    rw [empty]
    cases reads
    rfl
  | origin marked trimmed =>
    rw [marked, ofText, ← trimmed_iff.1 trimmed]
    cases reads with
    | origin numeral => rw [numeral?_eq_some_iff.2 numeral]
    | originWithoutTarget worded => rw [numeral?_eq_none_iff.2 worded]
  | data unmarked split directive follows trimmed =>
    exact ofText_of_data unmarked split directive follows trimmed reads
  | number unmarked split coded numeral =>
    have hnumeral : (numeral? text).isSome = true := by
      rw [numeral?_eq_some_iff.2 numeral]
      rfl
    rw [ofText_of_coded unmarked split coded, if_pos hnumeral, ofLiteral_of_isNumeral numeral]
    cases reads with
    | number fits =>
      rw [if_pos fits]
      rfl
    | numberOutOfRange big =>
      rw [if_neg big]
      rfl
  | instruction unmarked split coded worded =>
    rw [ofText_of_coded unmarked split coded, numeral?_eq_none_iff.2 worded]
    exact ofTokens_of_reads reads

/-- A line that the grammar gives an outcome is read with that outcome. -/
theorem ofLine_of_grammar {line : List Char} {outcome : Except Cause (Option Statement)}
    (h : Grammar line outcome) : ofLine line = outcome := by
  obtain ⟨body, text, form, kept, trimmed, fits, reads⟩ := h
  rw [ofLine, ← uncommented_iff.1 kept, ← trimmed_iff.1 trimmed]
  exact ofText_of_hasForm fits reads

/-- **Every line has an outcome.** -/
theorem exists_grammar (line : List Char) : ∃ outcome, Grammar line outcome := by
  have trimmed := trimmed_trim (withoutComment line)
  obtain ⟨form, fits⟩ := exists_hasForm trimmed
  obtain ⟨outcome, reads⟩ := form.exists_reads
  exact ⟨outcome, _, _, form, uncommented_withoutComment line, trimmed, fits, reads⟩

/-- **A line is read as the grammar says, and every spelling names one opcode.**

* On any line the reading has an outcome exactly if the grammar gives the line that outcome.
* A token that is a spelling of an opcode, in any case, names that opcode and no other. -/
theorem ofLine_eq_iff_grammar :
    (∀ line outcome, ofLine line = outcome ↔ Grammar line outcome) ∧
      ∀ op : Opcode, ∀ spelling ∈ op.mnemonics, ∀ token, EqIgnoringCase token spelling.toList →
        ∀ other, Opcode.ofMnemonic? token = some other ↔ other = op := by
  constructor
  · intro line outcome
    constructor
    · rintro rfl
      obtain ⟨outcome, h⟩ := exists_grammar line
      rw [ofLine_of_grammar h]
      exact h
    · exact ofLine_of_grammar
  · intro op spelling hspelling token same other
    have spells := spells_of_eqIgnoringCase hspelling same
    rw [ofMnemonic?_eq_some_iff]
    constructor
    · exact fun h => h.unique spells
    · rintro rfl
      exact spells

/-- A comment within a comment, a mnemonic in mixed case, a negative operand and a token too many. -/
theorem ofLine_eq_iff_grammar_mixed :
    Grammar "\tbRu -101 7 // ; 5".toList (.error (.trailingToken "7")) ∧
      "BRU" ∈ Opcode.branch.mnemonics ∧ EqIgnoringCase "bRu".toList "BRU".toList ∧
        ∀ other, Opcode.ofMnemonic? "bRu".toList = some other ↔ other = .branch := by
  have hread : ofLine "\tbRu -101 7 // ; 5".toList = .error (.trailingToken "7") := rfl
  have hmem : "BRU" ∈ Opcode.branch.mnemonics := by decide
  have hcase : EqIgnoringCase "bRu".toList "BRU".toList := by
    unfold EqIgnoringCase
    decide
  exact ⟨(ofLine_eq_iff_grammar.1 _ _).1 hread, hmem, hcase,
    ofLine_eq_iff_grammar.2 .branch "BRU" hmem _ hcase⟩

end Statement

end Assembly
end DecimalMachine
