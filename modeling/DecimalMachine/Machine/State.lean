/-
# Registers, flags and memory

| register | content |
| --- | --- |
| `PC` | address of the next instruction |
| `AC` | the accumulator |
| `IR` | the instruction word in execution |
| `MAR` | the address last put on the bus |
| `MBR` | the word last taken from or given to memory |

The flags say whether the accumulator was last set to zero, and whether to a negative number.
-/

import DecimalMachine.Memory

namespace DecimalMachine

/-- The registers of a machine. -/
inductive Register where
  | pc | ac | ir | mar | mbr
  deriving DecidableEq, Repr

namespace Register

/-- Every register, in the order in which a reset clears them. -/
def all : List Register := [pc, ac, ir, mar, mbr]

/-- The name of a register in messages. -/
def name : Register → String
  | pc => "PC"
  | ac => "AC"
  | ir => "IR"
  | mar => "MAR"
  | mbr => "MBR"

end Register

/-- What the registers hold. -/
structure Registers where
  pc : Int
  ac : Int
  ir : Int
  mar : Int
  mbr : Int
  deriving DecidableEq, Repr

namespace Registers

/-- Registers that all hold zero. -/
def zero : Registers := ⟨0, 0, 0, 0, 0⟩

/-- What a register holds. -/
def get (r : Registers) : Register → Int
  | .pc => r.pc
  | .ac => r.ac
  | .ir => r.ir
  | .mar => r.mar
  | .mbr => r.mbr

/-- The registers after one of them was set. -/
def set (r : Registers) (register : Register) (value : Int) : Registers :=
  match register with
  | .pc => { r with pc := value }
  | .ac => { r with ac := value }
  | .ir => { r with ir := value }
  | .mar => { r with mar := value }
  | .mbr => { r with mbr := value }

/-- Only the register that is set changes. -/
theorem get_set (r : Registers) (a b : Register) (value : Int) :
    (r.set a value).get b = if b = a then value else r.get b := by
  cases a <;> cases b <;> rfl

/-- Registers are equal if each of them holds the same. -/
@[ext] theorem ext_get {r s : Registers} (h : ∀ a, r.get a = s.get a) : r = s := by
  cases r; cases s
  simpa [get] using And.intro (h .pc) ⟨h .ac, h .ir, h .mar, h .mbr⟩

end Registers

/-- What is known of the number that was last put into the accumulator. -/
structure Flags where
  zero : Bool
  negative : Bool
  deriving DecidableEq, Repr

namespace Flags

/-- Flags that are both off. -/
def clear : Flags := ⟨false, false⟩

/-- The flags of a number in the accumulator. -/
def ofAc (ac : Int) : Flags := ⟨ac == 0, decide (ac < 0)⟩

end Flags

/-- Everything that an instruction can change, apart from the input it consumes. -/
structure State where
  registers : Registers
  flags : Flags
  memory : Memory
  deriving DecidableEq, Repr

namespace State

/-- The state in which everything is zero. -/
def zero : State := ⟨.zero, .clear, .zero⟩

instance : Inhabited State := ⟨zero⟩

/-- The address of the next instruction. -/
def pc (s : State) : Int := s.registers.pc

/-- The accumulator. -/
def ac (s : State) : Int := s.registers.ac

/-- The instruction word in execution. -/
def ir (s : State) : Int := s.registers.ir

/-- The state after a register was set. -/
def setRegister (s : State) (register : Register) (value : Int) : State :=
  { s with registers := s.registers.set register value }

/-- The state after the flags were set. -/
def setFlags (s : State) (flags : Flags) : State := { s with flags := flags }

/-- The state after a cell was set. -/
def setCell (s : State) (address : Nat) (value : Int) : State :=
  { s with memory := s.memory.set address value }

end State
end DecimalMachine
