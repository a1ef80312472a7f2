/-
# Words and addresses

A word is a signed decimal number of three digits, an address a number of two digits. An
instruction word is one opcode digit followed by a two digit operand.

| quantity | range |
| --- | --- |
| word | `-999 ≤ w ≤ 999` |
| address | `0 ≤ a < 100` |
| opcode digit | `w / 100` |
| operand | `w % 100` |
-/

namespace DecimalMachine

/-- Number of memory cells. -/
def memorySize : Nat := 100

/-- The least word. -/
def wordMin : Int := -999

/-- The greatest word. -/
def wordMax : Int := 999

/-- What follows the opcode digit is counted modulo this radix. -/
def operandRadix : Nat := 100

/-- Whether a number can be held in a memory cell. -/
def InWordRange (value : Int) : Prop := wordMin ≤ value ∧ value ≤ wordMax

instance (value : Int) : Decidable (InWordRange value) :=
  inferInstanceAs (Decidable (_ ∧ _))

/-- The words are the numbers from -999 to 999. -/
theorem inWordRange_iff {value : Int} : InWordRange value ↔ -999 ≤ value ∧ value ≤ 999 := Iff.rfl

end DecimalMachine
