/-
# Words of instructions in sixteen bits

Numbers have a width: a word has sixteen bits and a sign, an operand has thirty-two bits where it is written
and eight where it is an operand field. Here instructions are written and read in these widths, and a sum
or a product that does not fit into its width is none.

| step | width | no overflow, because |
| --- | ---: | --- |
| remainder of an operand, and the radix added if it is negative | 32 | it lies between -99 and 99 |
| code times the radix, and the field added | 16 | a code in front of a field is at most 8 |
| digits of a word | 16, no sign | the magnitude of the least word has sixteen bits |

So every step has the result that it has for numbers without a width (`operandField?_eq`, `encode?_eq`,
`decode?_eq`), and it remains that writing and reading are inverse to each other: an instruction comes back as
it is, a word without its sign and without the digits above the third.
-/

import DecimalMachine.Proofs.Instruction.Encoding
import Mathlib.Algebra.Group.Int.Defs

namespace DecimalMachine

namespace Bits

/-! ### Arithmetic with a width -/

section Arithmetic

variable {n : Nat}

/-- The sum of two signed numbers, if it fits into their width. -/
def sum? (a b : BitVec n) : Option (BitVec n) := if a.saddOverflow b then none else some (a + b)

/-- The product of two signed numbers, if it fits into their width. -/
def product? (a b : BitVec n) : Option (BitVec n) := if a.smulOverflow b then none else some (a * b)

/-- The Euclidean remainder of a signed number: a truncated remainder that is negative is raised. -/
def remainder? (a b : BitVec n) : Option (BitVec n) :=
  if (a.srem b).slt 0 then sum? (a.srem b) b.abs else some (a.srem b)

variable {a b : BitVec n}

/-- A sum within the bounds is one. -/
theorem exists_sum? (low : -2 ^ (n - 1) ≤ a.toInt + b.toInt) (high : a.toInt + b.toInt < 2 ^ (n - 1)) :
    ∃ c, sum? a b = some c ∧ c.toInt = a.toInt + b.toInt := by
  have fits : ¬ a.saddOverflow b = true := by
    simp [BitVec.saddOverflow]
    omega
  exact ⟨a + b, if_neg fits, BitVec.toInt_add_of_not_saddOverflow fits⟩

/-- A product within the bounds is one. -/
theorem exists_product? (low : -2 ^ (n - 1) ≤ a.toInt * b.toInt)
    (high : a.toInt * b.toInt < 2 ^ (n - 1)) :
    ∃ c, product? a b = some c ∧ c.toInt = a.toInt * b.toInt := by
  have fits : ¬ a.smulOverflow b = true := by
    simp [BitVec.smulOverflow]
    omega
  exact ⟨a * b, if_neg fits, BitVec.toInt_mul_of_not_smulOverflow fits⟩

/-- **The magnitude of a number always has its width**, without a sign. -/
theorem toNat_abs (a : BitVec n) : a.abs.toNat = a.toInt.natAbs := by
  have bound := a.isLt
  rw [BitVec.toNat_abs, BitVec.toInt_eq_msb_cond]
  split <;> omega

/-- A number that is not negative is its own magnitude. -/
theorem abs_of_toInt_pos (h : 0 < b.toInt) : b.abs.toInt = b.toInt := by
  have unsigned : b.msb = false := by
    rw [BitVec.msb_eq_toInt, decide_eq_false_iff_not]
    omega
  rw [BitVec.abs, unsigned]
  rfl

/-- **The remainder by a positive number is the Euclidean one**, and the sum in it fits. -/
theorem exists_remainder? (a : BitVec n) (positive : 0 < b.toInt) :
    ∃ c, remainder? a b = some c ∧ c.toInt = a.toInt % b.toInt := by
  have truncated : (a.srem b).toInt = a.toInt % b.toInt -
      ((if 0 ≤ a.toInt ∨ b.toInt ∣ a.toInt then 0 else b.toInt.natAbs : Nat) : Int) := by
    rw [BitVec.toInt_srem, Int.tmod_eq_emod]
  have low : 0 ≤ a.toInt % b.toInt := Int.emod_nonneg _ (by omega)
  have high : a.toInt % b.toInt < b.toInt := Int.emod_lt_of_pos _ positive
  have width : b.toInt < 2 ^ (n - 1) := BitVec.toInt_lt
  have raised : b.abs.toInt = b.toInt := abs_of_toInt_pos positive
  have sign : (a.srem b).slt 0 = true ↔ (a.srem b).toInt < 0 := by
    rw [BitVec.slt_iff_toInt_lt]
    exact iff_of_eq (congrArg _ BitVec.toInt_zero)
  unfold remainder?
  by_cases negative : (a.srem b).slt 0 = true
  · have below := sign.1 negative
    have split : (a.srem b).toInt = a.toInt % b.toInt - b.toInt := by
      split at truncated <;> omega
    obtain ⟨c, hsum, hc⟩ := @exists_sum? n (a.srem b) b.abs (by omega) (by omega)
    exact ⟨c, (if_pos negative).trans hsum, by omega⟩
  · have above := mt sign.2 negative
    refine ⟨a.srem b, if_neg negative, ?_⟩
    split at truncated <;> omega

end Arithmetic

/-! ### Instructions -/

/-- The code of an opcode. -/
def code (op : Opcode) : BitVec 16 := BitVec.ofNat 16 op.code

/-- The operand field of an instruction that is written with an operand. -/
def operandField? (op : Opcode) (operand : BitVec 32) : Option (BitVec 8) :=
  if op.isFullWord then some 0 else (remainder? operand 100).map (BitVec.setWidth 8)

/-- The word of an instruction with an operand field. -/
def encode? (op : Opcode) (field : BitVec 8) : Option (BitVec 16) :=
  if op.isFullWord then some (code op)
  else (product? (code op) 100).bind fun shifted => sum? shifted (field.setWidth 16)

/-- The opcode and the operand field that a word stands for. -/
def decode? (word : BitVec 16) : Option (Opcode × BitVec 8) :=
  if word = 901 then some (.input, 0) else if word = 902 then some (.output, 0)
  else (Opcode.ofDigit? (word.abs / 100 % 10).toNat).map fun op => (op, (word.abs % 100).setWidth 8)

/-- The instruction with an opcode and an operand field. -/
def instruction : Opcode × BitVec 8 → Instruction := fun (op, field) => ⟨op, field.toNat⟩

/-- The code of an opcode in bits is its code. -/
theorem toInt_code (op : Opcode) : (code op).toInt = op.code := by
  cases op <;> rfl

/-- **An operand is reduced without overflow.** -/
theorem operandField?_eq (op : Opcode) (operand : BitVec 32) :
    (operandField? op operand).map BitVec.toNat =
      some (Instruction.ofOperand op operand.toInt).operand := by
  unfold operandField? Instruction.ofOperand
  cases full : op.isFullWord with
  | true => rfl
  | false =>
    obtain ⟨field, reduced, value⟩ := @exists_remainder? 32 100 operand (by decide)
    have radix : (100 : BitVec 32).toInt = 100 := rfl
    have whole := field.toInt_eq_msb_cond
    have bound := field.isLt
    rw [radix] at value
    simp only [reduced, Bool.false_eq_true, if_false, Option.map_some, BitVec.toNat_setWidth, memorySize,
      Option.some_inj]
    split at whole <;> omega

/-- **The word of an instruction is computed without overflow.** -/
theorem encode?_eq {i : Instruction} {field : BitVec 8} (same : field.toNat = i.operand) :
    (encode? i.opcode field).map BitVec.toInt = some i.encode := by
  unfold encode?
  cases full : i.opcode.isFullWord with
  | true =>
    rw [Instruction.encode, if_pos full, if_pos rfl, Option.map_some, toInt_code]
  | false =>
    have small := Opcode.code_le_of_isFullWord full
    have bound := field.isLt
    have product : (code i.opcode).toInt * (100 : BitVec 16).toInt = i.opcode.code * 100 := by
      rw [toInt_code]
      rfl
    have second : (field.setWidth 16).toInt = i.operand := by
      rw [BitVec.toInt_setWidth, Int.bmod_eq_of_le (by omega) (by omega), same]
    obtain ⟨shifted, hproduct, hshifted⟩ := @exists_product? 16 (code i.opcode) 100 (by omega) (by omega)
    obtain ⟨word, hsum, hword⟩ := @exists_sum? 16 shifted (field.setWidth 16) (by omega) (by omega)
    have value : word.toInt = i.encode := by
      rw [Instruction.encode_of_fields full]
      unfold operandRadix
      omega
    rw [if_neg Bool.false_ne_true, hproduct, Option.bind_some, hsum, Option.map_some, value]

/-- **A word is read without overflow.** -/
theorem decode?_eq (word : BitVec 16) :
    (decode? word).map instruction = Instruction.decode? word.toInt := by
  have isIn : word.toInt = 901 ↔ word = 901 := @BitVec.toInt_inj 16 word 901
  have isOut : word.toInt = 902 ↔ word = 902 := @BitVec.toInt_inj 16 word 902
  unfold decode? Instruction.decode? Instruction.decodeFullWord?
  simp only [isIn, isOut]
  split
  · rfl
  · split
    · rfl
    · have field : ((word.abs % 100).setWidth 8).toNat = word.toInt.natAbs % operandRadix := by
        rw [BitVec.toNat_setWidth, BitVec.toNat_umod, toNat_abs]
        unfold operandRadix
        simp
        omega
      have digit : (word.abs / 100 % 10).toNat = word.toInt.natAbs / operandRadix % 10 := by
        rw [BitVec.toNat_umod, BitVec.toNat_udiv, toNat_abs]
        rfl
      simp only [Option.map_map, Instruction.decodeFields?, digit, ← field]
      rfl

end Bits

namespace Instruction

/-- An operand is written and read back without overflow. -/
theorem written_in_width (op : Opcode) (operand : BitVec 32) :
    ∃ field word, Bits.operandField? op operand = some field ∧
      Bits.instruction (op, field) = ofOperand op operand.toInt ∧
      Bits.encode? op field = some word ∧ word.toInt = (ofOperand op operand.toInt).encode ∧
      (Bits.decode? word).map Bits.instruction = some (ofOperand op operand.toInt) := by
  obtain ⟨field, reduced, hfield⟩ := Option.map_eq_some_iff.1 (Bits.operandField?_eq op operand)
  obtain ⟨word, written, hword⟩ := Option.map_eq_some_iff.1
    (Bits.encode?_eq (i := ofOperand op operand.toInt) hfield)
  have same : Bits.instruction (op, field) = ofOperand op operand.toInt := by
    rw [Bits.instruction, hfield]
    rfl
  refine ⟨field, word, reduced, same, written, hword, ?_⟩
  rw [Bits.decode?_eq, hword]
  exact decode?_encode (canonical_ofOperand op operand.toInt)

/-- What a word of sixteen bits stands for is written without overflow. -/
theorem rewritten_in_width {word : BitVec 16} {i : Instruction} (h : decode? word.toInt = some i) :
    ∃ field again, Bits.instruction (i.opcode, field) = i ∧ Bits.encode? i.opcode field = some again ∧
      again.toInt = i.encode := by
  rw [← Bits.decode?_eq] at h
  obtain ⟨⟨op, field⟩, -, rfl⟩ := Option.map_eq_some_iff.1 h
  obtain ⟨again, written, value⟩ := Option.map_eq_some_iff.1
    (Bits.encode?_eq (i := Bits.instruction (op, field)) rfl)
  exact ⟨field, again, rfl, written, value⟩

/-- **Writing and reading an instruction are inverse to each other, up to what is reduced.**

* Any operand of thirty-two bits is reduced to its remainder by 100, and dropped for `IN` and `OUT`. The
  word of the instruction lies in 0..=999 and stands for that instruction.
* A word of sixteen bits stands for nothing if and only if its opcode digit is nine and it is neither 901 nor
  902. If it stands for an instruction, then so does the word of that instruction, which is the word
  without its sign and without the digits above the third.

In both directions every step fits into the width of its numbers. -/
theorem encode_inverse_decode :
    (∀ (op : Opcode) (operand : BitVec 32),
      ((ofOperand op operand.toInt).opcode = op ∧
        ((ofOperand op operand.toInt).operand : Int) = if op.isFullWord then 0 else operand.toInt % 100) ∧
      (0 ≤ (ofOperand op operand.toInt).encode ∧ (ofOperand op operand.toInt).encode ≤ 999 ∧
        decode? (ofOperand op operand.toInt).encode = some (ofOperand op operand.toInt)) ∧
      ∃ field word, Bits.operandField? op operand = some field ∧
        Bits.instruction (op, field) = ofOperand op operand.toInt ∧
        Bits.encode? op field = some word ∧ word.toInt = (ofOperand op operand.toInt).encode ∧
        (Bits.decode? word).map Bits.instruction = some (ofOperand op operand.toInt)) ∧
    ∀ word : BitVec 16,
      (decode? word.toInt = none ↔
        word.toInt.natAbs / 100 % 10 = 9 ∧ word.toInt ≠ 901 ∧ word.toInt ≠ 902) ∧
      (Bits.decode? word).map Bits.instruction = decode? word.toInt ∧
      ∀ i, decode? word.toInt = some i →
        i.operand < 100 ∧ decode? i.encode = some i ∧ i.encode = (word.toInt.natAbs % 1000 : Nat) ∧
        ∃ field again, Bits.instruction (i.opcode, field) = i ∧
          Bits.encode? i.opcode field = some again ∧ again.toInt = i.encode := by
  refine ⟨fun op operand => ?_,
    fun word => ⟨decode?_eq_none_iff, Bits.decode?_eq word, fun i read => ?_⟩⟩
  · have canonical := canonical_ofOperand op operand.toInt
    have reads := decode?_encode canonical
    have digits := encode_of_decode? reads
    exact ⟨⟨rfl, operand_ofOperand op operand.toInt⟩, ⟨by omega, by omega, reads⟩,
      written_in_width op operand⟩
  · have canonical := canonical_of_decode? read
    exact ⟨canonical.operand_lt, decode?_encode canonical, encode_of_decode? read,
      rewritten_in_width read⟩

/-- The least operand of thirty-two bits ends in 48 and is raised to 52; the least word of sixteen bits
loses its sign and two digits and stands for `BRZ 68`. -/
theorem encode_inverse_decode_least :
    (ofOperand .load (BitVec.intMin 32).toInt = ⟨.load, 52⟩ ∧
      Bits.operandField? .load (BitVec.intMin 32) = some 52) ∧
    decode? (BitVec.intMin 16).toInt = some ⟨.brz, 68⟩ ∧ (⟨.brz, 68⟩ : Instruction).encode = 768 := by
  have word := (encode_inverse_decode.2 (BitVec.intMin 16)).2.2 ⟨.brz, 68⟩ (by decide)
  exact ⟨⟨by decide, by decide⟩, by decide, word.2.2.1⟩

end Instruction
end DecimalMachine
