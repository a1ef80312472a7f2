/-
# Cycles by cases

A cycle of a machine whose control has left the program does nothing but end. Otherwise the word at
the counter is fetched, and the cycle is a fault if the word stands for no instruction, or else what
the instruction does and a look at the counter after it.
-/

import DecimalMachine.Machine.Step

namespace DecimalMachine

namespace Progress

variable {ι : Type} (p : Progress ι) (address : Nat)

/-- What a fetch does to the machine, without what it tells. -/
theorem machine_fetch :
    (p.fetch address).machine =
      (((p.readCell address).setRegister .ir (p.machine.state.memory.get address)).setRegister .pc
        (address + 1)).machine := by
  unfold fetch
  dsimp only
  split <;> rfl

end Progress

namespace Machine

variable {ι : Type} (m : Machine ι)

/-- The address that the next step fetches from. -/
def address : Nat := m.state.pc.toNat

/-- The word that the next step fetches. -/
def word : Int := m.state.memory.get m.address

/-- The machine after the fetch of the next step. -/
def fetched : Progress ι := Progress.fetch ⟨m, []⟩ m.address

/-- After a fetch the instruction register holds the word. -/
theorem ir_fetched : m.fetched.machine.state.ir = m.word := by
  rw [fetched, Progress.machine_fetch]
  rfl

/-- A fetch moves the counter on by one, and leaves the accumulator, memory and the input source. -/
theorem frame_fetched :
    m.fetched.machine.state.pc = m.address + 1 ∧ m.fetched.machine.state.ac = m.state.ac ∧
      m.fetched.machine.state.memory = m.state.memory ∧ m.fetched.machine.input = m.input := by
  rw [fetched, Progress.machine_fetch]
  exact ⟨rfl, rfl, rfl, rfl⟩

/-- A counter within the program is an address below the extent. -/
theorem address_lt_extent (inside : m.pastEnd = false) :
    (m.address : Int) = m.state.pc ∧ m.address < m.program.extent := by
  simp only [pastEnd, Bool.or_eq_false_iff, decide_eq_false_iff_not] at inside
  unfold address
  omega

/-- A counter within the program is the address of a cell. -/
theorem address_lt_of_pastEnd (h : m.pastEnd = false) : m.address < memorySize :=
  Nat.lt_of_lt_of_le (m.address_lt_extent h).2 m.fits

variable [InputSource ι]

/-- The machine after the execution of an instruction that was just fetched. -/
def executed (i : Instruction) : Progress ι × Ending :=
  (m.fetched.announce m.address i).execute m.address i

variable {m}

/-- Behind the program a step halts without a fetch. -/
theorem cycle_of_pastEnd (h : m.pastEnd = true) : m.cycle = (⟨m, []⟩, .halted .ranOffEnd) :=
  if_pos h

/-- Inside the program a step fetches, and executes the word if it stands for an instruction. -/
theorem cycle_of_inside (inside : m.pastEnd = false) :
    m.cycle =
      match Instruction.decode? m.word with
      | none => (m.fetched, .faulted (.unknownOpcode m.address m.word))
      | some i =>
        if (m.executed i).2 = .proceeded ∧ (m.executed i).1.machine.pastEnd then
          ((m.executed i).1, .halted .ranOffEnd)
        else m.executed i := by
  rw [← ir_fetched]
  exact if_neg (Bool.eq_false_iff.1 inside)

end Machine
end DecimalMachine
