/-
# Effects

Whatever a step does, it does by a few kinds of effects: it logs, speaks to the observers, reads a
cell over the bus, sets a register, sets the accumulator together with its flags, writes a cell, or
asks the input source. `Progress.Effect` lists them with what bounds their arguments, and
`Machine.step_effects` says that every step is a chain of effects, after which at most the stop is
set. A property of machines and journals that each effect keeps is kept by every step, so that a
proof has one case for each effect and not one for each instruction.

The values of an effect are bounded relative to the state that it meets: a word that comes out of
memory or out of the accumulator is in range because the state is.
-/

import DecimalMachine.Proofs.Machine.Cycle
import DecimalMachine.Proofs.Machine.Range
import Mathlib.Logic.Relation

namespace DecimalMachine

/-- An event that tells of no change: a notice, or the source line of a fetch. -/
def Event.IsRemark : Event → Prop
  | notice _ _ | lineExecuted _ => True
  | _ => False

namespace Progress

variable {ι : Type} [InputSource ι]

/-- One effect of a step. -/
inductive Effect : Progress ι → Progress ι → Prop
  | log (p : Progress ι) (level : Level) (message : String) : Effect p (p.log level message)
  | remark (p : Progress ι) {e : Event} (h : e.IsRemark) : Effect p (p.emit e)
  | send (p : Progress ι) : Effect p (p.emit (.output p.machine.state.ac))
  | read (p : Progress ι) {address : Nat} (h : address < memorySize) : Effect p (p.readCell address)
  | setRegister (p : Progress ι) (register : Register) (value : Int) (h : register ≠ .ac)
      (bound : p.machine.state.InRange → register.Admits value) :
      Effect p (p.setRegister register value)
  | setAc (p : Progress ι) {value : Int} (bound : p.machine.state.InRange → InWordRange value) :
      Effect p (p.setAc value)
  | write (p : Progress ι) {address : Nat} {value : Int} (h : address < memorySize)
      (bound : InWordRange value) : Effect p (p.writeCell address value)
  | ask (p : Progress ι) : Effect p p.ask

/-- A chain of effects. -/
abbrev Effects : Progress ι → Progress ι → Prop := Relation.ReflTransGen Effect

variable (p : Progress ι)

/-- A notice is an event that tells of no change. -/
theorem Effect.notice (severity : Severity) (message : String) :
    Effect p (p.notice severity message) :=
  .remark p trivial

/-! ### The parts of a step -/

/-- A fetch is a read of its cell, two registers and perhaps a source line. -/
theorem fetch_effects {address : Nat} (h : address < memorySize) : Effects p (p.fetch address) := by
  have hread : Effects p (p.readCell address) := .single (.read p h)
  have hir := hread.tail (.setRegister _ .ir _ (by decide)
    fun bound => bound.cells address)
  have hpc := hir.tail (.setRegister _ .pc (address + 1) (by decide)
    fun _ => Register.admits_pc_succ h)
  unfold fetch
  dsimp only
  split
  · exact hpc.tail (.remark _ trivial)
  · exact hpc

/-- An announcement is a notice. -/
theorem announce_effects (address : Nat) (i : Instruction) : Effects p (p.announce address i) :=
  (Relation.ReflTransGen.single (.log p _ _)).tail (.notice _ _ _)

/-- A result sets the accumulator if it is a word, and has no effect otherwise. -/
theorem accept_effects (op : Opcode) (address : Nat) (value : Int) :
    Effects p (p.accept op address value).1 := by
  unfold accept
  split
  · next bound => exact .single (.setAc p fun _ => bound)
  · exact .refl

/-- Arithmetic is a read and a result. -/
theorem arithmetic_effects (op : Opcode) (combine : Int → Int → Int) (address : Nat) {operand : Nat}
    (h : operand < memorySize) : Effects p (p.arithmetic op combine address operand).1 :=
  (Relation.ReflTransGen.single (.read p h)).trans (accept_effects _ op address _)

/-- A store sets two registers and a cell. -/
theorem store_effects {operand : Nat} (h : operand < memorySize) :
    Effects p (p.store operand).1 := by
  have hmar : Effects p (p.setRegister .mar operand) :=
    .single (.setRegister p .mar operand (by decide) fun _ => Register.admits_mar h)
  have hmbr := hmar.tail (.setRegister _ .mbr p.machine.state.ac (by decide)
    fun bound => bound.ac)
  unfold store
  dsimp only
  split
  · exact hmbr
  · next allowed => exact hmbr.tail (.write _ h (Memory.writeViolation?_eq_none_iff.1 allowed).2)

/-- A branch sets the counter, or has no effect. -/
theorem branch_effects {operand : Nat} (h : operand < memorySize) (taken : Prop) [Decidable taken] :
    Effects p (p.branch operand taken) := by
  unfold branch
  split
  · exact .single (.setRegister p .pc operand (by decide) fun _ => Register.admits_pc h)
  · exact .refl

/-- `INPUT` is a request, and a result if there is an answer. -/
theorem receive_effects (address : Nat) : Effects p (p.receive address).1 := by
  have hask : Effects p p.ask := .single (.ask p)
  unfold receive
  split
  · exact hask
  · exact (hask.tail (.log _ _ _)).trans (accept_effects _ .input address _)

/-- `OUTPUT` tells of the accumulator, which is a word. -/
theorem send_effects : Effects p p.send :=
  (Relation.ReflTransGen.single (.log p _ _)).tail (.send _)

/-- **Every instruction is a chain of effects**, if its operand is an address. -/
theorem execute_effects (address : Nat) {i : Instruction} (h : i.operand < memorySize) :
    Effects p (p.execute address i).1 := by
  unfold execute
  cases i.opcode with
  | halt | nop => exact .refl
  | add | sub => exact arithmetic_effects p _ _ address h
  | store => exact store_effects p h
  | load =>
    exact (Relation.ReflTransGen.single (.read p h)).tail (.setAc _ fun bound => bound.cells _)
  | branch => exact branch_effects p h True
  | brz => exact branch_effects p h (p.machine.state.ac = 0)
  | brp => exact branch_effects p h (0 ≤ p.machine.state.ac)
  | input => exact receive_effects p address
  | output => exact send_effects p

/-- Settling a cycle logs, speaks to the observers, and sets the stop. -/
theorem settle_effects (ending : Ending) :
    ∃ q, Effects p q ∧ (p.settle ending).journal = q.journal ∧
      (p.settle ending).next = { q.machine with stop := (p.settle ending).next.stop } := by
  cases ending with
  | proceeded | violated => exact ⟨p, .refl, rfl, rfl⟩
  | halted reason =>
    cases reason with
    | halt => exact ⟨_, .single (.log p _ _), rfl, rfl⟩
    | ranOffEnd =>
      exact ⟨_, (Relation.ReflTransGen.single (.log p _ _)).tail (.notice _ _ _), rfl, rfl⟩
  | faulted fault =>
    exact ⟨_, (Relation.ReflTransGen.single (.log p _ _)).tail (.notice _ _ _), rfl, rfl⟩

end Progress

namespace Machine

variable {ι : Type} [InputSource ι] (m : Machine ι)

/-- The first part of a step that fetches is a chain of effects. -/
theorem fetched_effects (inside : m.pastEnd = false) : Progress.Effects ⟨m, []⟩ m.fetched :=
  Progress.fetch_effects _ (m.address_lt_of_pastEnd inside)

/-- The second part of a step is one as well, for the operand of a decoded word is an address. -/
theorem executed_effects_of_fetched {i : Instruction}
    (decoded : Instruction.decode? m.word = some i) :
    Progress.Effects m.fetched (m.executed i).1 :=
  (Progress.announce_effects _ _ i).trans
    (Progress.execute_effects _ _ (Instruction.operand_lt_of_decode? decoded))

/-- Both parts of a step that executes an instruction. -/
theorem executed_effects (inside : m.pastEnd = false) {i : Instruction}
    (decoded : Instruction.decode? m.word = some i) :
    Progress.Effects ⟨m, []⟩ (m.executed i).1 :=
  (m.fetched_effects inside).trans (m.executed_effects_of_fetched decoded)

/-- A cycle within the program goes on from the fetch. -/
theorem cycle_effects_of_inside (inside : m.pastEnd = false) :
    Progress.Effects m.fetched m.cycle.1 := by
  rw [cycle_of_inside inside]
  split
  · exact .refl
  · next i decoded =>
    have hexecuted := m.executed_effects_of_fetched decoded
    split
    · exact hexecuted
    · exact hexecuted

/-- **A step is a chain of effects**, up to its end, whether it fetches, decodes or does neither. -/
theorem cycle_effects : Progress.Effects ⟨m, []⟩ m.cycle.1 := by
  cases inside : m.pastEnd with
  | true => rw [cycle_of_pastEnd inside]
  | false => exact (m.fetched_effects inside).trans (m.cycle_effects_of_inside inside)

/-- **A step is a chain of effects** on the machine and an empty journal, after which at most the
stop is set. -/
theorem step_effects :
    ∃ q, Progress.Effects ⟨m, []⟩ q ∧ m.step.journal = q.journal ∧
      m.step.next = { q.machine with stop := m.step.next.stop } := by
  unfold step
  split
  · exact ⟨⟨m, []⟩, .refl, rfl, rfl⟩
  · obtain ⟨q, hq, hjournal, hnext⟩ := Progress.settle_effects m.cycle.1 m.cycle.2
    exact ⟨q, m.cycle_effects.trans hq, hjournal, hnext⟩

end Machine
end DecimalMachine
