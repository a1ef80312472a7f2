/-
# Instructions and their words

An instruction is written as one word and read back from one. Reading ignores the sign of a word
and every digit above the opcode digit, except that `901` and `902` are `IN` and `OUT` only as
they stand.
-/

import DecimalMachine.Word
import DecimalMachine.Opcode

namespace DecimalMachine

/-- An opcode and the address that it works on. -/
structure Instruction where
  opcode : Opcode
  operand : Nat
  deriving DecidableEq, Repr, Inhabited

namespace Instruction

/-- An instruction with its operand reduced to an address. `IN` and `OUT` drop the operand. -/
def ofOperand (op : Opcode) (operand : Int) : Instruction where
  opcode := op
  operand := if op.isFullWord then 0 else (operand % (memorySize : Int)).toNat

/-- The word of an instruction. -/
def encode (i : Instruction) : Int :=
  if i.opcode.isFullWord then i.opcode.code else i.opcode.code * operandRadix + i.operand

/-- Reads the words that stand for a whole instruction. -/
def decodeFullWord? (word : Int) : Option Instruction :=
  if word = 901 then some ⟨.input, 0⟩ else if word = 902 then some ⟨.output, 0⟩ else none

/-- Reads an opcode digit and an operand; the sign is ignored. -/
def decodeFields? (word : Int) : Option Instruction :=
  (Opcode.ofDigit? (word.natAbs / operandRadix % 10)).map fun op =>
    ⟨op, word.natAbs % operandRadix⟩

/-- The instruction that a word stands for. -/
def decode? (word : Int) : Option Instruction :=
  match decodeFullWord? word with
  | some i => some i
  | none => decodeFields? word

/-- The instruction as it is written in listings: an operand that has no meaning is left out. -/
def text (i : Instruction) : String :=
  if i.opcode.usesOperand then i.opcode.name ++ " " ++ toString i.operand else i.opcode.name

instance : ToString Instruction := ⟨text⟩

/-- The operand of an instruction is an address, from whatever number it was made. -/
theorem operand_ofOperand_lt (op : Opcode) (operand : Int) :
    (ofOperand op operand).operand < memorySize := by
  unfold ofOperand memorySize
  dsimp only
  split <;> omega

/-- What a word stands for has an address as its operand. -/
theorem operand_lt_of_decode? {word : Int} {i : Instruction} (h : decode? word = some i) :
    i.operand < memorySize := by
  unfold decode? decodeFullWord? decodeFields? at h
  have small : word.natAbs % operandRadix < memorySize := Nat.mod_lt _ (by decide)
  split at h
  · next j hj =>
    cases h
    split at hj
    · cases hj; decide
    · split at hj
      · cases hj; decide
      · cases hj
  · obtain ⟨op, -, rfl⟩ := Option.map_eq_some_iff.1 h
    exact small

end Instruction
end DecimalMachine
