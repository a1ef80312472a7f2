/-
# Memory

Memory is 100 cells, each holding a word. An access outside of these bounds is a mistake of the
caller and is answered with a `Violation`; for a write the address is checked before the value.

The view of a memory is `Memory.get`: the cell at an address, or zero where there is no cell.
-/

import DecimalMachine.Violation

namespace DecimalMachine

/-- The cells of a machine. -/
structure Memory where
  cells : Vector Int memorySize
  deriving DecidableEq, Repr

namespace Memory

/-- Memory in which every cell is zero. -/
def zero : Memory := ⟨Vector.replicate memorySize 0⟩

instance : Inhabited Memory := ⟨zero⟩

/-- The cell at an address, or zero where there is no cell. -/
def get (m : Memory) (address : Nat) : Int :=
  if h : address < memorySize then m.cells[address] else 0

/-- Memory with one cell changed; where there is no cell nothing changes. -/
def set (m : Memory) (address : Nat) (value : Int) : Memory :=
  if h : address < memorySize then ⟨m.cells.set address value⟩ else m

/-- The cells in the order of their addresses. -/
def toList (m : Memory) : List Int := m.cells.toList

/-- The violation that a write would be, if any. -/
def writeViolation? (address : Nat) (value : Int) : Option Violation :=
  if ¬ address < memorySize then some (.writeOutside address)
  else if ¬ InWordRange value then some (.writeOversized value address)
  else none

/-- A read by a caller that has to stay inside memory. -/
def read (m : Memory) (address : Nat) : Except Violation Int :=
  if address < memorySize then .ok (m.get address) else .error (.readOutside address)

/-- Memories are equal if each cell holds the same. -/
@[ext] theorem ext_get {m n : Memory} (h : ∀ address < memorySize, m.get address = n.get address) :
    m = n := by
  cases m with | mk a =>
  cases n with | mk b =>
  congr 1
  ext i hi
  simpa [get, hi] using h i hi

/-- Memory in which every cell is zero holds zero everywhere. -/
@[simp] theorem get_zero (address : Nat) : zero.get address = 0 := by
  unfold get zero; split <;> simp

/-- A cell that was set holds what it was set to. -/
@[simp] theorem get_set_self (m : Memory) {address : Nat} (h : address < memorySize) (value : Int) :
    (m.set address value).get address = value := by
  simp [get, set, h]

/-- Setting one cell leaves the others as they are. -/
theorem get_set_of_ne (m : Memory) {a b : Nat} (h : a ≠ b) (value : Int) :
    (m.set a value).get b = m.get b := by
  unfold get set
  split
  · split
    · next ha => exact Vector.getElem_set_ne ha _ h
    · rfl
  · rfl

/-- Only the cell that is set changes. -/
theorem get_set (m : Memory) {a : Nat} (ha : a < memorySize) (b : Nat) (value : Int) :
    (m.set a value).get b = if b = a then value else m.get b := by
  by_cases h : b = a
  · subst h; simp [ha]
  · simp [h, get_set_of_ne m (Ne.symm h)]

/-- A write is no violation exactly if there is a cell and the value is a word. -/
theorem writeViolation?_eq_none_iff {address : Nat} {value : Int} :
    writeViolation? address value = none ↔ address < memorySize ∧ InWordRange value := by
  unfold writeViolation?
  split
  · next h => exact ⟨(nomatch ·), fun k => absurd k.1 h⟩
  · split
    · next h => exact ⟨(nomatch ·), fun k => absurd k.2 h⟩
    · next ha hv => exact ⟨fun _ => ⟨Decidable.not_not.1 ha, Decidable.not_not.1 hv⟩, fun _ => rfl⟩

end Memory
end DecimalMachine
