/-
# What a row shows, read as a source line

A row of a listing shows a word as data or as an instruction. Its text is a source line, and the
statement on it is the word or the instruction that is shown, without the operand if that is left out.
The entry that is placed for the statement shows the same text again.

| shown | text | word that the text is assembled into |
| --- | --- | --- |
| data | `DAT` and the word | the word |
| `IN`, `OUT` | the name | the word, 901 or 902 |
| `HALT`, `NOP` | the name | 0, 400 |
| another opcode | the name and the operand | the word without its sign |
-/

import DecimalMachine.Listing
import DecimalMachine.Proofs.Assembly.Entries
import DecimalMachine.Proofs.Assembly.Grammar
import DecimalMachine.Proofs.Text.Words

namespace DecimalMachine

open Text Assembly

/-! ### Names and numbers are words -/

namespace Opcode

/-- The name of an opcode is a word. -/
theorem isWord_name (op : Opcode) : IsWord op.name.toList := by
  cases op <;> exact isWord_of_all (by decide) (by decide)

/-- A name begins with a letter, so that it is no numeral and no origin, and it is not `DAT`. -/
theorem head_name (op : Opcode) : ∃ c tail, op.name.toList = c :: tail ∧ c ≠ '*' ∧ c ≠ '+' ∧ c ≠ '-' ∧
    c.isDigit = false := by
  cases op <;> exact ⟨_, _, rfl, by decide⟩

/-- No name of an opcode is the mark of data. -/
theorem not_eqIgnoringCase_name (op : Opcode) : ¬ EqIgnoringCase op.name.toList ['D', 'A', 'T'] := by
  unfold EqIgnoringCase
  cases op <;> decide

/-- The name of an opcode spells it. -/
theorem spells_name (op : Opcode) : Spells op.name.toList op :=
  ⟨op.name, List.mem_cons_self, by cases op <;> decide⟩

end Opcode

/-- A word is written as a numeral. -/
theorem isNumeral_word {word : Int} (h : InWordRange word) : IsNumeral (toString word).toList word := by
  refine isNumeral_toString ?_
  rw [inWordRange_iff] at h
  unfold InNumeralRange
  omega

/-- What begins with the name of an opcode is no numeral. -/
theorem not_isNumeral_of_name {op : Opcode} {text : List Char} (begins : op.name.toList <+: text)
    (value : Int) : ¬ IsNumeral text value := by
  intro h
  obtain ⟨c, tail, hname, -, plus, minus, digit⟩ := op.head_name
  have member : c ∈ text := by
    refine begins.subset ?_
    rw [hname]
    exact List.mem_cons_self
  rcases h.signed.mem member with hc | hc | hc
  · exact plus hc
  · exact minus hc
  · exact Bool.false_ne_true (digit.symm.trans hc)

/-- What begins with the name of an opcode, as its first token, is an instruction. -/
theorem grammar_of_name {op : Opcode} {text : List Char} {others : List (List Char)}
    {outcome : Except Cause (Option Statement)} (begins : op.name.toList <+: text)
    (h : LaidOut text (op.name.toList :: others))
    (reads : (Form.instruction op.name.toList others).Reads outcome) : Grammar text outcome := by
  refine ⟨text, text, _, h.uncommented, h.trimmed, ?_, reads⟩
  refine .instruction ?_ h.tokenised op.not_eqIgnoringCase_name (not_isNumeral_of_name begins)
  obtain ⟨rest, rfl⟩ := begins
  obtain ⟨c, tail, hname, star, -⟩ := op.head_name
  rw [hname]
  exact fun hc => star (Option.some.inj hc)

namespace Instruction

/-- The instruction that the text of an instruction writes: an operand that is left out is 0. -/
def shown (i : Instruction) : Instruction := if i.opcode.usesOperand then i else ⟨i.opcode, 0⟩

/-- What is shown of an instruction has its opcode. -/
theorem shown_opcode (i : Instruction) : i.shown.opcode = i.opcode := by
  unfold shown
  split <;> rfl

/-- What is shown of an instruction has its text. -/
theorem text_shown (i : Instruction) : i.shown.text = i.text := by
  unfold shown
  split
  · rfl
  · next unused => rw [text, text, if_neg unused, if_neg unused]

/-- What is shown has no operand where none is used. -/
theorem canonical_shown {i : Instruction} (h : i.operand < memorySize) : i.shown.Canonical where
  operand_lt := by
    unfold shown
    split
    · exact h
    · exact Nat.zero_lt_succ 99
  operand_eq_zero := by
    intro full
    have unused : i.opcode.usesOperand = false := by
      rw [shown_opcode] at full
      cases hop : i.opcode <;> rw [hop] at full <;> first | rfl | cases full
    rw [shown, unused]
    rfl

/-- An instruction is written as its name and its operand, if it uses one. -/
theorem toList_text {i : Instruction} (h : i.opcode.usesOperand = true) :
    i.text.toList = i.opcode.name.toList ++ ' ' :: (toString (Int.ofNat i.operand)).toList := by
  rw [text, if_pos h, String.toList_append, String.toList_append, List.append_assoc]
  rfl

/-- An operand is written as a numeral. -/
theorem isNumeral_operand {i : Instruction} (h : i.operand < memorySize) :
    IsNumeral (toString (Int.ofNat i.operand)).toList i.operand := by
  refine isNumeral_toString ?_
  unfold memorySize at h
  unfold InNumeralRange
  dsimp only [Int.ofNat_eq_natCast]
  omega

/-- **The text of an instruction is read as the instruction that it shows.** -/
theorem ofLine_text {i : Instruction} (h : i.operand < memorySize) :
    Statement.ofLine i.text.toList = .ok (some (.instruction i.shown)) := by
  refine Statement.ofLine_of_grammar ?_
  by_cases used : i.opcode.usesOperand = true
  · have numeral := isNumeral_operand h
    have field : OperandField i.opcode i.operand i.operand := by
      have coded : ¬ (i.opcode = .input ∨ i.opcode = .output) := by
        rintro (hop | hop) <;> rw [hop] at used <;> cases used
      unfold memorySize at h
      rw [OperandField, if_neg coded]
      omega
    rw [toList_text used, shown, if_pos used]
    exact grammar_of_name (List.prefix_append _ _) (i.opcode.isWord_name.laidOut_pair numeral.isWord)
      (.operand i.opcode.spells_name numeral field)
  · rw [text, if_neg used, shown, if_neg used]
    exact grammar_of_name List.prefix_rfl i.opcode.isWord_name.laidOut (.bare i.opcode.spells_name)

/-- The text of an instruction is a line of its own. -/
theorem isLine_text {i : Instruction} (h : i.operand < memorySize) : IsLine i.text.toList := by
  by_cases used : i.opcode.usesOperand = true
  · rw [toList_text used]
    exact i.opcode.isWord_name.isLine.pair (isNumeral_operand h).isWord.isLine
  · rw [text, if_neg used]
    exact i.opcode.isWord_name.isLine

/-- Texts that are equal show the same instruction. -/
theorem shown_eq_of_text {i j : Instruction} (hi : i.operand < memorySize) (hj : j.operand < memorySize)
    (h : i.text = j.text) : i.shown = j.shown := by
  have read := ofLine_text hi
  rw [h, ofLine_text hj] at read
  exact (Statement.instruction.inj (Option.some.inj (Except.ok.inj read))).symm

/-- The digit and the operand are all of a word of three digits. -/
theorem encode_of_usesOperand {word : Int} {i : Instruction} (bound : InWordRange word)
    (h : decode? word = some i) (used : i.opcode.usesOperand = true) : i.encode = word.natAbs := by
  rcases eq_of_decode? h with ⟨-, rfl⟩ | ⟨-, rfl⟩ | ⟨full, hcode, hoperand⟩
  · cases used
  · cases used
  · rw [inWordRange_iff] at bound
    rw [encode_of_fields full, hcode, hoperand]
    unfold operandRadix
    omega

end Instruction

/-! ### Rows -/

namespace Listing

/-- Data is written as the mark of data and the word. -/
theorem toList_dataText (word : Int) :
    (dataText word).toList = ['D', 'A', 'T'] ++ ' ' :: (toString word).toList := by
  rw [dataText, String.toList_append, String.toList_append, List.append_assoc]
  rfl

/-- **The text of a word as data is read as that word.** -/
theorem ofLine_dataText {word : Int} (h : InWordRange word) :
    Statement.ofLine (dataText word).toList = .ok (some (.data word)) := by
  have numeral := isNumeral_word h
  have laidOut := isWord_dat.laidOut_pair numeral.isWord
  have spaced : Trimmed (' ' :: (toString word).toList) (toString word).toList :=
    ⟨⟨[' '], [], (List.append_nil _).symm, List.forall_mem_singleton.2 rfl, List.forall_mem_nil _⟩,
      numeral.isWord.laidOut.trimmed.head, numeral.isWord.laidOut.trimmed.last⟩
  rw [toList_dataText]
  refine Statement.ofLine_of_grammar ⟨_, _, _, laidOut.uncommented, laidOut.trimmed, ?_,
    .literal numeral h⟩
  exact .data (by simp) laidOut.tokenised rfl rfl spaced

/-- Data can stand on a line. -/
theorem isLine_dataText {word : Int} (h : InWordRange word) : IsLine (dataText word).toList := by
  rw [toList_dataText]
  exact isWord_dat.isLine.pair (isNumeral_word h).isWord.isLine

/-- What a row shows: a word as data, or an instruction. -/
inductive Shown where
  | data (word : Int)
  | code (i : Instruction)

namespace Shown

/-- What is shown for a word, given the entry at its address. -/
def ofWord (entry : Option Entry) (word : Int) : Shown :=
  if entry.any Entry.isData then data word
  else
    match Instruction.decode? word with
    | some i => code i
    | none => data word

/-- The text that is shown. -/
def text : Shown → String
  | data word => dataText word
  | code i => i.text

/-- The statement on the source line that the text is. -/
def statement : Shown → Statement
  | data word => .data word
  | code i => .instruction i.shown

/-- The entry that the statement is placed as where every line before has a word too. -/
def entry (address : Nat) : Shown → Entry
  | data word => .ofData address word (address + 1)
  | code i => .ofInstruction address i.shown (address + 1)

/-- A word, or an instruction with an address. -/
def Valid : Shown → Prop
  | data word => InWordRange word
  | code i => i.operand < memorySize

/-- Only a word that stands for an instruction is shown as one. -/
theorem ofWord_cases (e : Option Entry) (word : Int) :
    ofWord e word = data word ∨
      ∃ i, Instruction.decode? word = some i ∧ ofWord e word = code i := by
  unfold ofWord
  split
  · exact .inl rfl
  · rcases Instruction.decode? word with _ | i
    · exact .inl rfl
    · exact .inr ⟨i, rfl, rfl⟩

/-- What is shown of a word is valid. -/
theorem valid_ofWord (e : Option Entry) {word : Int} (h : InWordRange word) :
    (ofWord e word).Valid := by
  rcases ofWord_cases e word with shows | ⟨i, decoded, shows⟩
  · rw [shows]
    exact h
  · rw [shows]
    exact Instruction.operand_lt_of_decode? decoded

/-- What is shown of a word has the text of its interpretation. -/
theorem text_ofWord (e : Option Entry) (word : Int) : (ofWord e word).text = interpretation e word := by
  unfold ofWord interpretation
  rcases Instruction.decode? word with _ | i
  · split <;> rfl
  · split <;> rfl

variable {s : Shown}

/-- **A text that is shown is read as the statement that it shows.** -/
theorem ofLine_text (h : s.Valid) : Statement.ofLine s.text.toList = .ok (some s.statement) := by
  cases s with
  | data word => exact ofLine_dataText h
  | code i => exact Instruction.ofLine_text h

/-- A text that is shown can stand on a line. -/
theorem isLine_text (h : s.Valid) : IsLine s.text.toList := by
  cases s with
  | data word => exact isLine_dataText h
  | code i => exact Instruction.isLine_text h

/-- A statement that is shown is placed as the entry that it shows. -/
theorem ofStatement_statement (address : Nat) (s : Shown) :
    Placement.ofStatement address ⟨address + 1, s.statement⟩ = .ofEntry (s.entry address) := by
  cases s <;> rfl

/-- The entry has the address of its row. -/
@[simp] theorem entry_address (address : Nat) (s : Shown) : (s.entry address).address = address := by
  cases s <;> rfl

/-- The entry can be loaded. -/
theorem loadable_entry (h : s.Valid) {address : Nat} (room : address < memorySize) :
    (s.entry address).Loadable := by
  cases s with
  | data word => exact ⟨room, h⟩
  | code i => exact ⟨room, Instruction.inWordRange_encode (Instruction.canonical_shown h)⟩

/-- **An entry that was placed for a text shows the same text again.** -/
theorem interpretation_entry (h : s.Valid) (address : Nat) :
    interpretation (some (s.entry address)) (s.entry address).word = s.text := by
  rw [← text_ofWord]
  cases s with
  | data word => rfl
  | code i =>
    have named : ((some (entry address (code i))).any Entry.isData) = false :=
      beq_eq_false_iff_ne.2 (Entry.name_ne_dataMnemonic _)
    have stands : Instruction.decode? (entry address (code i)).word = some i.shown :=
      Instruction.decode?_encode (Instruction.canonical_shown h)
    rw [ofWord, named, stands]
    exact Instruction.text_shown i

end Shown

/-- The word that the text of a row is assembled into. -/
def Row.reassembled (r : Row) : Int :=
  if r.interpretation = "HALT" then 0
  else if r.interpretation = "NOP" then 400
  else if r.interpretation ∈ [dataText r.word, "IN", "OUT"] then r.word
  else r.word.natAbs

/-- The text of an instruction is none of a word as data. -/
theorem text_ne_dataText {i : Instruction} {word : Int} (h : i.operand < memorySize)
    (bound : InWordRange word) : i.text ≠ dataText word := by
  intro same
  have read := Instruction.ofLine_text h
  rw [same, ofLine_dataText bound] at read
  nomatch read

/-- Data is assembled to its word again. -/
theorem reassembled_of_data {r : Row} (bound : InWordRange r.word)
    (h : r.interpretation = dataText r.word) : r.reassembled = r.word := by
  have apart (i : Instruction) (small : i.operand < memorySize) : r.interpretation ≠ i.text := by
    rw [h]
    exact (text_ne_dataText small bound).symm
  have halt : r.interpretation ≠ "HALT" := apart ⟨.halt, 0⟩ (by decide)
  have nop : r.interpretation ≠ "NOP" := apart ⟨.nop, 0⟩ (by decide)
  rw [Row.reassembled, if_neg halt, if_neg nop, h, if_pos List.mem_cons_self]

/-- An opcode that uses its operand is shown with it, and nothing else is shown like that. -/
theorem reassembled_of_usesOperand {r : Row} {i : Instruction} (bound : InWordRange r.word)
    (small : i.operand < memorySize) (used : i.opcode.usesOperand = true)
    (h : r.interpretation = i.text) : r.reassembled = r.word.natAbs := by
  have apart (op : Opcode) (unused : op.usesOperand = false) :
      r.interpretation ≠ (⟨op, 0⟩ : Instruction).text := by
    rw [h]
    intro same
    have shown := congrArg Instruction.opcode
      (Instruction.shown_eq_of_text small (Nat.zero_lt_succ 99) same)
    rw [Instruction.shown_opcode, Instruction.shown_opcode] at shown
    rw [shown, unused] at used
    exact Bool.false_ne_true used
  have halt : r.interpretation ≠ "HALT" := apart .halt rfl
  have nop : r.interpretation ≠ "NOP" := apart .nop rfl
  have whole : r.interpretation ∉ [dataText r.word, "IN", "OUT"] := by
    simp only [List.mem_cons, List.not_mem_nil, or_false, not_or]
    refine ⟨?_, apart .input rfl, apart .output rfl⟩
    rw [h]
    exact text_ne_dataText small bound
  rw [Row.reassembled, if_neg halt, if_neg nop, if_neg whole]

/-- An instruction is assembled to what is shown of it, which may have lost an operand that is not used. -/
theorem reassembled_of_code {r : Row} {i : Instruction} (bound : InWordRange r.word)
    (decoded : Instruction.decode? r.word = some i) (h : r.interpretation = i.text) :
    r.reassembled = i.shown.encode := by
  by_cases used : i.opcode.usesOperand = true
  · have small : i.operand < memorySize := Instruction.operand_lt_of_decode? decoded
    rw [reassembled_of_usesOperand bound small used h, Instruction.shown, if_pos used,
      Instruction.encode_of_usesOperand bound decoded used]
  · have named : r.interpretation = i.opcode.name := h.trans (if_neg used)
    rw [Row.reassembled, named, Instruction.shown, if_neg used]
    rcases Instruction.eq_of_decode? decoded with ⟨hword, rfl⟩ | ⟨hword, rfl⟩ | ⟨full, -, -⟩
    · rw [hword]
      rfl
    · rw [hword]
      rfl
    · obtain ⟨op, operand⟩ := i
      dsimp only at full used
      cases op <;> first | rfl | exact absurd rfl used | cases full

end Listing
end DecimalMachine
