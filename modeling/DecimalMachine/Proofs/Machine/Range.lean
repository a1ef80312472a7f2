/-
# Ranges

The registers of a machine that was loaded and driven by steps stay in these ranges, and its cells
hold words.

| register | range |
| --- | --- |
| `PC` | `0 ≤ v ≤ 100` |
| `MAR` | `0 ≤ v < 100` |
| `AC`, `IR`, `MBR` | words |

`State.InRange` says so of a state and `Event.InRange` of what an event tells: an access to memory
names a cell, and what it tells of a register or a cell is in range. A step that stays in these
ranges makes no mistake that would be a violation.
-/

import DecimalMachine.Machine.Step

namespace DecimalMachine

/-- The values that a register takes while a machine works. -/
def Register.Admits : Register → Int → Prop
  | .pc, value => 0 ≤ value ∧ value ≤ (memorySize : Int)
  | .mar, value => 0 ≤ value ∧ value < (memorySize : Int)
  | .ac, value | .ir, value | .mbr, value => InWordRange value

instance : (register : Register) → (value : Int) → Decidable (register.Admits value)
  | .pc, _ | .mar, _ => inferInstanceAs (Decidable (_ ∧ _))
  | .ac, value | .ir, value | .mbr, value => inferInstanceAs (Decidable (InWordRange value))

/-- Every register can hold zero. -/
theorem Register.admits_zero (register : Register) : register.Admits 0 := by
  cases register <;> decide

/-- The address register holds any address of a cell. -/
theorem Register.admits_mar {address : Nat} (h : address < memorySize) :
    Register.mar.Admits address :=
  ⟨Int.natCast_nonneg address, Int.ofNat_lt.2 h⟩

/-- The counter holds any address of a cell. -/
theorem Register.admits_pc {address : Nat} (h : address < memorySize) :
    Register.pc.Admits address :=
  ⟨Int.natCast_nonneg address, Int.ofNat_le.2 (Nat.le_of_lt h)⟩

/-- The counter can also point just behind the last cell. -/
theorem Register.admits_pc_succ {address : Nat} (h : address < memorySize) :
    Register.pc.Admits (address + 1) :=
  ⟨by omega, Int.add_one_le_of_lt (Int.ofNat_lt.2 h)⟩

namespace State

/-- Every register admits its value, and every cell holds a word. -/
structure InRange (s : State) : Prop where
  registers : ∀ register : Register, register.Admits (s.registers.get register)
  cells : ∀ address, InWordRange (s.memory.get address)

/-- A cleared state is in range. -/
theorem inRange_zero : zero.InRange where
  registers register := by cases register <;> decide
  cells address := by
    rw [zero, Memory.get_zero]
    decide

namespace InRange

variable {s : State}

/-- The accumulator of a state in range is a word. -/
theorem ac (h : s.InRange) : InWordRange s.ac := h.registers .ac

/-- Setting a register to what it admits keeps a state in range. -/
theorem setRegister (h : s.InRange) {register : Register} {value : Int}
    (hv : register.Admits value) : (s.setRegister register value).InRange where
  registers other := by
    rw [State.setRegister, Registers.get_set]
    split
    · next same => exact same ▸ hv
    · exact h.registers other
  cells := h.cells

/-- Flags have no range. -/
theorem setFlags (h : s.InRange) (flags : Flags) : (s.setFlags flags).InRange :=
  ⟨h.registers, h.cells⟩

/-- Writing a word to a cell keeps a state in range. -/
theorem setCell (h : s.InRange) {address : Nat} {value : Int} (ha : address < memorySize)
    (hv : InWordRange value) : (s.setCell address value).InRange where
  registers := h.registers
  cells other := by
    rw [State.setCell, Memory.get_set _ ha]
    split
    · exact hv
    · exact h.cells other

end InRange
end State

/-- What an event tells is in range. -/
def Event.InRange : Event → Prop
  | registerChanged register value => register.Admits value
  | memoryWritten address value => address < memorySize ∧ InWordRange value
  | memoryRead address => address < memorySize
  | output word => InWordRange word
  | _ => True

end DecimalMachine
