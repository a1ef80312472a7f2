/-
# Words of instructions

An instruction that an operand was reduced for is written as a word that stands for it again: the
opcode digit and the operand field come back, and `IN` and `OUT` have no operand to lose. In the other
direction a word loses its sign and the digits above the third.
-/

import DecimalMachine.Instruction

namespace DecimalMachine

namespace Opcode

/-- An opcode that leaves room for an operand has a code of one digit. -/
theorem code_le_of_isFullWord {op : Opcode} (h : op.isFullWord = false) : op.code ≤ 8 := by
  cases op <;> first | decide | cases h

/-- An opcode that is a full word is one of two. -/
theorem code_of_isFullWord {op : Opcode} (h : op.isFullWord = true) :
    op.code = 901 ∨ op.code = 902 := by
  cases op <;> first | decide | cases h

/-- The digit 9 stands for no opcode. -/
theorem ofDigit?_eq_none_iff {digit : Nat} : ofDigit? digit = none ↔ 9 ≤ digit := by
  unfold ofDigit?
  split <;> grind

end Opcode

namespace Instruction

/-- An instruction with an address as its operand, or with none where the word leaves no room. -/
structure Canonical (i : Instruction) : Prop where
  operand_lt : i.operand < memorySize
  operand_eq_zero : i.opcode.isFullWord = true → i.operand = 0

/-- An instruction that is made of an operand is canonical. -/
theorem canonical_ofOperand (op : Opcode) (operand : Int) : (ofOperand op operand).Canonical where
  operand_lt := operand_ofOperand_lt op operand
  operand_eq_zero full := if_pos full

/-- Its operand is what is left modulo 100, and zero if none is used. -/
theorem operand_ofOperand (op : Opcode) (operand : Int) :
    ((ofOperand op operand).operand : Int) = if op.isFullWord then 0 else operand % 100 := by
  unfold ofOperand memorySize
  dsimp only
  split <;> omega

/-- The word of an instruction with an operand field. -/
theorem encode_of_fields {i : Instruction} (h : i.opcode.isFullWord = false) :
    i.encode = i.opcode.code * operandRadix + i.operand :=
  if_neg (Bool.eq_false_iff.1 h)

/-- A canonical instruction is encoded as a word. -/
theorem inWordRange_encode {i : Instruction} (h : i.Canonical) : InWordRange i.encode := by
  have hoperand : i.operand < 100 := h.operand_lt
  rw [inWordRange_iff]
  cases full : i.opcode.isFullWord with
  | true =>
    have hcode := Opcode.code_of_isFullWord full
    rw [encode, if_pos full]
    omega
  | false =>
    have hcode := Opcode.code_le_of_isFullWord full
    rw [encode_of_fields full]
    unfold operandRadix
    omega

/-- **A word stands for the instruction that it was written for.** -/
theorem decode?_encode {i : Instruction} (h : i.Canonical) : decode? i.encode = some i := by
  obtain ⟨op, operand⟩ := i
  have hoperand : operand < 100 := h.operand_lt
  cases full : op.isFullWord with
  | true =>
    have hnone : operand = 0 := h.operand_eq_zero full
    subst hnone
    cases op <;> rfl
  | false =>
    have hcode := Opcode.code_le_of_isFullWord full
    have hword : (encode ⟨op, operand⟩).natAbs = op.code * 100 + operand := by
      rw [encode_of_fields full]
      rfl
    have hdigit : (op.code * 100 + operand) / operandRadix % 10 = op.code := by
      unfold operandRadix
      omega
    have hfield : (op.code * 100 + operand) % operandRadix = operand := by
      unfold operandRadix
      omega
    have hin : encode ⟨op, operand⟩ ≠ 901 := by omega
    have hout : encode ⟨op, operand⟩ ≠ 902 := by omega
    rw [decode?, decodeFullWord?, if_neg hin, if_neg hout]
    dsimp only
    rw [decodeFields?, hword, hdigit, hfield, Opcode.ofDigit?_code full]
    rfl

/-- A word stands for `IN` or `OUT` as it is, or for an opcode digit and an operand. -/
theorem eq_of_decode? {word : Int} {i : Instruction} (h : decode? word = some i) :
    (word = 901 ∧ i = ⟨.input, 0⟩) ∨ (word = 902 ∧ i = ⟨.output, 0⟩) ∨
      (i.opcode.isFullWord = false ∧ i.opcode.code = word.natAbs / 100 % 10 ∧
        i.operand = word.natAbs % 100) := by
  by_cases isIn : word = 901
  · subst isIn
    exact .inl ⟨rfl, (Option.some.inj h).symm⟩
  by_cases isOut : word = 902
  · subst isOut
    exact .inr (.inl ⟨rfl, (Option.some.inj h).symm⟩)
  rw [decode?, decodeFullWord?, if_neg isIn, if_neg isOut] at h
  obtain ⟨op, hop, rfl⟩ := Option.map_eq_some_iff.1 h
  obtain ⟨hcode, full⟩ := Opcode.code_of_ofDigit? hop
  exact .inr (.inr ⟨full, hcode, rfl⟩)

/-- **The words that stand for nothing** have a nine in front of an operand and are not 901 or 902. -/
theorem decode?_eq_none_iff {word : Int} :
    decode? word = none ↔ word.natAbs / 100 % 10 = 9 ∧ word ≠ 901 ∧ word ≠ 902 := by
  by_cases isIn : word = 901
  · subst isIn
    decide
  by_cases isOut : word = 902
  · subst isOut
    decide
  rw [decode?, decodeFullWord?, if_neg isIn, if_neg isOut]
  dsimp only
  have digit := Nat.mod_lt (word.natAbs / 100) (show 0 < 10 by decide)
  rw [decodeFields?, Option.map_eq_none_iff, Opcode.ofDigit?_eq_none_iff]
  unfold operandRadix
  exact ⟨fun nine => ⟨by omega, isIn, isOut⟩, fun ⟨nine, _⟩ => by omega⟩

/-- What is decoded is canonical. -/
theorem canonical_of_decode? {word : Int} {i : Instruction} (h : decode? word = some i) : i.Canonical where
  operand_lt := operand_lt_of_decode? h
  operand_eq_zero full := by
    rcases eq_of_decode? h with ⟨-, rfl⟩ | ⟨-, rfl⟩ | ⟨fields, -, -⟩
    · rfl
    · rfl
    · cases full.symm.trans fields

/-- **What is read from a word is written as its last three digits**, without its sign. -/
theorem encode_of_decode? {word : Int} {i : Instruction} (h : decode? word = some i) :
    i.encode = ((word.natAbs % 1000 : Nat) : Int) := by
  rcases eq_of_decode? h with ⟨rfl, rfl⟩ | ⟨rfl, rfl⟩ | ⟨fields, hcode, hoperand⟩
  · rfl
  · rfl
  · rw [encode_of_fields fields, hcode, hoperand]
    unfold operandRadix
    omega

end Instruction
end DecimalMachine
