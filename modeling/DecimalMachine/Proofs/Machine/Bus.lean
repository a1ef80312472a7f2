/-
# What is on the bus

`MAR` and `MBR` are written several times within a step: by the fetch, by the read of an operand, and by a
`STORE`, which gives the bus a word before memory has it. Whatever the instruction, and however it ends, the
last of these writes leaves the bus with a cell and the word of this cell (`State.BusCoherent`).

| instruction | `MAR` after it | why `MBR` is the word of that cell |
| --- | --- | --- |
| `ADD`, `SUB`, `LOAD` | its operand | it was read, and a result that is no word is not written |
| `STORE` | its operand | it was written there, also over the instruction itself |
| any other, or no instruction | the address of the fetch | it was fetched |

`IR` keeps the fetched word (`Machine.Fetched`), even where a `STORE` has replaced it in memory. A step that
does not fetch changes nothing of the state, so both hold until the next fetch.
-/

import DecimalMachine.Proofs.Machine.Branchless

namespace DecimalMachine

/-- The bus shows a cell as it is: `MAR` is the address of a cell, and `MBR` its word. -/
structure State.BusCoherent (s : State) : Prop where
  mar : 0 ≤ s.registers.mar ∧ s.registers.mar ≤ 99
  mbr : s.registers.mbr = s.memory.get s.registers.mar.toNat

instance (s : State) : Decidable s.BusCoherent :=
  decidable_of_iff ((0 ≤ s.registers.mar ∧ s.registers.mar ≤ 99) ∧
    s.registers.mbr = s.memory.get s.registers.mar.toNat) ⟨fun h => ⟨h.1, h.2⟩, fun h => ⟨h.1, h.2⟩⟩

namespace Progress

variable {ι : Type} {p q : Progress ι}

/-! ### Parts of a step that leave the bus alone -/

/-- Between `p` and `q` neither the registers of the bus nor memory nor `IR` changed. -/
structure KeepsBus (p q : Progress ι) : Prop where
  mar : q.machine.state.registers.mar = p.machine.state.registers.mar
  mbr : q.machine.state.registers.mbr = p.machine.state.registers.mbr
  ir : q.machine.state.ir = p.machine.state.ir
  memory : q.machine.state.memory = p.machine.state.memory

/-- Where neither the bus nor memory changed, a coherent bus stays coherent. -/
theorem KeepsBus.coherent (h : KeepsBus p q) (hp : p.machine.state.BusCoherent) :
    q.machine.state.BusCoherent where
  mar := by
    rw [h.mar]
    exact hp.mar
  mbr := by
    rw [h.mbr, h.memory, h.mar]
    exact hp.mbr

variable (p)

/-- A result leaves bus, memory and `IR` alone. -/
theorem keepsBus_accept (op : Opcode) (address : Nat) (value : Int) :
    KeepsBus p (p.accept op address value).1 := by
  unfold accept
  split <;> exact ⟨rfl, rfl, rfl, rfl⟩

/-- A branch keeps the bus as it is: it sets the counter at most. -/
theorem keepsBus_branch (operand : Nat) (taken : Prop) [Decidable taken] :
    KeepsBus p (p.branch operand taken) := by
  unfold branch
  split <;> exact ⟨rfl, rfl, rfl, rfl⟩

/-- `INPUT` keeps the bus as it is: it asks for a number and puts it into the accumulator at most. -/
theorem keepsBus_receive [InputSource ι] (address : Nat) : KeepsBus p (p.receive address).1 := by
  unfold receive
  split
  · exact ⟨rfl, rfl, rfl, rfl⟩
  · next value _ =>
    obtain ⟨mar, mbr, ir, memory⟩ :=
      (p.ask.log .debug ("IN: read " ++ toString value)).keepsBus_accept .input address value
    exact ⟨mar, mbr, ir, memory⟩

/-! ### Parts of a step that use the bus -/

/-- A read leaves the bus coherent, whatever it was before. -/
theorem busCoherent_readCell {address : Nat} (h : address < memorySize) :
    (p.readCell address).machine.state.BusCoherent where
  mar := ⟨Int.natCast_nonneg address, Int.le_of_lt_add_one (Int.ofNat_lt.2 h)⟩
  mbr := rfl

/-- A fetch is a read, and the counter is not on the bus. -/
theorem busCoherent_fetch {address : Nat} (h : address < memorySize) :
    (p.fetch address).machine.state.BusCoherent := by
  have read := p.busCoherent_readCell h
  rw [machine_fetch]
  exact ⟨read.mar, read.mbr⟩

/-- A word that is stored is on the bus as it is in memory. -/
theorem busCoherent_store {operand : Nat} (h : operand < memorySize)
    (word : InWordRange p.machine.state.ac) : (p.store operand).1.machine.state.BusCoherent := by
  unfold store
  dsimp only
  rw [Memory.writeViolation?_eq_none_iff.2 ⟨h, word⟩]
  exact
    { mar := ⟨Int.natCast_nonneg operand, Int.le_of_lt_add_one (Int.ofNat_lt.2 h)⟩
      mbr := (Memory.get_set_self _ h _).symm }

/-- A store leaves the instruction register alone. -/
theorem ir_store (operand : Nat) :
    (p.store operand).1.machine.state.ir = p.machine.state.ir := by
  unfold store
  dsimp only
  split <;> rfl

variable [InputSource ι]

/-- **An instruction leaves the bus with a cell as it is**, if it finds it so. -/
theorem busCoherent_execute (address : Nat) {i : Instruction} (h : i.operand < memorySize)
    (word : InWordRange p.machine.state.ac) (before : p.machine.state.BusCoherent) :
    (p.execute address i).1.machine.state.BusCoherent := by
  have read := p.busCoherent_readCell h
  unfold execute
  cases i.opcode with
  | halt | nop => exact before
  | add | sub => exact (keepsBus_accept _ _ address _).coherent read
  | store => exact p.busCoherent_store h word
  | load => exact ⟨read.mar, read.mbr⟩
  | branch | brz | brp => exact (p.keepsBus_branch i.operand _).coherent before
  | input => exact (p.keepsBus_receive address).coherent before
  | output => exact ⟨before.mar, before.mbr⟩

/-- Only a fetch writes `IR`. -/
theorem ir_execute (address : Nat) (i : Instruction) :
    (p.execute address i).1.machine.state.ir = p.machine.state.ir := by
  unfold execute
  cases i.opcode with
  | halt | nop | load | output => rfl
  | add | sub => exact (keepsBus_accept (p.readCell i.operand) _ address _).ir
  | store => exact p.ir_store i.operand
  | branch | brz | brp => exact (p.keepsBus_branch i.operand _).ir
  | input => exact (p.keepsBus_receive address).ir

end Progress

namespace Machine

variable {ι : Type} [InputSource ι] {m : Machine ι}

/-! ### One step -/

/-- What the registers of a fetch say in the state `after`, where `before` is the machine that fetched last:
`IR` is the word at its counter, and the counter is behind that word unless the instruction was a branch that
was taken. -/
structure Fetched (before : Machine ι) (after : State) : Prop where
  counter : 0 ≤ before.state.pc ∧ before.state.pc ≤ 99
  ir : after.ir = before.state.memory.get before.state.pc.toNat
  next : before.branches = false → after.pc = before.state.pc + 1
  target : before.branches = true →
    ∃ i, Instruction.decode? after.ir = some i ∧ i.branchesAt before.state.ac = true ∧
      after.pc = i.operand

/-- A step that takes a branch moves the counter to the operand of the fetched word. -/
theorem pc_step_of_branches (h : m.branches = true) :
    ∃ i, Instruction.decode? m.word = some i ∧ i.branchesAt m.state.ac = true ∧
      m.step.next.state.pc = i.operand := by
  rw [branches, Bool.and_eq_true] at h
  obtain ⟨fetches, taken⟩ := h
  obtain ⟨going, inside⟩ := fetches_iff.1 fetches
  rw [step_of_not_isStopped going, state_settle, cycle_machine inside]
  cases decoded : Instruction.decode? m.word with
  | none =>
    rw [decoded] at taken
    cases taken
  | some i =>
    rw [decoded, Option.any_some] at taken
    have hexecuted : (m.executed i).1.machine.state.pc =
        if i.branchesAt m.fetched.machine.state.ac then (i.operand : Int)
        else m.fetched.machine.state.pc := Progress.pc_execute _ m.address i
    rw [m.frame_fetched.2.1, taken, if_pos rfl] at hexecuted
    exact ⟨i, rfl, taken, hexecuted⟩

/-- **A step that fetches leaves the bus with a cell as it is, and `IR` with what it fetched**, whether it
goes on, halts or faults. -/
theorem busCoherent_step (range : m.state.InRange) (fetches : m.fetches = true) :
    m.step.next.state.BusCoherent ∧ m.step.next.state.ir = m.word := by
  obtain ⟨going, inside⟩ := fetches_iff.1 fetches
  have hfetched : m.fetched.machine.state.BusCoherent :=
    Progress.busCoherent_fetch _ (m.address_lt_of_pastEnd inside)
  rw [step_of_not_isStopped going, state_settle, cycle_machine inside]
  cases decoded : Instruction.decode? m.word with
  | none => exact ⟨hfetched, m.ir_fetched⟩
  | some i =>
    have word : InWordRange m.fetched.machine.state.ac := by
      rw [m.frame_fetched.2.1]
      exact range.ac
    constructor
    · exact Progress.busCoherent_execute _ m.address (Instruction.operand_lt_of_decode? decoded) word
        hfetched
    · exact (Progress.ir_execute _ m.address i).trans m.ir_fetched

/-- A step that fetches leaves the word that it fetched, the cell it came from and the counter behind it. -/
theorem fetched_step (range : m.state.InRange) (fetches : m.fetches = true) :
    m.Fetched m.step.next.state := by
  have inside := (fetches_iff.1 fetches).2
  have counter := (m.address_lt_extent inside).1
  have below := m.address_lt_of_pastEnd inside
  have hir := (busCoherent_step range fetches).2
  refine ⟨?_, hir, pc_step_of_not_branches fetches, fun taken => ?_⟩
  · unfold memorySize at below
    omega
  · rw [hir]
    exact pc_step_of_branches taken

/-! ### Steps -/

/-- Among steps of which one fetches there is a last one that does, and after it the state stays. -/
theorem exists_last_fetch {count : Nat} (fetched : 0 < m.fetchCount count) :
    ∃ last < count, (m.steps last).next.fetches = true ∧
      (∀ later, last < later → later < count → (m.steps later).next.fetches = false) ∧
      (m.steps count).next.state = (m.steps last).next.step.next.state := by
  induction count with
  | zero => exact absurd fetched (Nat.lt_irrefl 0)
  | succ count ih =>
    have next : (m.steps (count + 1)).next = (m.steps count).next.step.next := by
      rw [steps_add]
      rfl
    rw [next]
    cases fetches : (m.steps count).next.fetches with
    | true => exact ⟨count, Nat.lt_succ_self count, fetches, fun later _ _ => by omega, rfl⟩
    | false =>
      rw [fetchCount_add, fetchCount, fetches, fetchCount] at fetched
      obtain ⟨last, below, hlast, idle, same⟩ := ih fetched
      refine ⟨last, by omega, hlast, fun later after before => ?_, ?_⟩
      · rcases Nat.lt_succ_iff_lt_or_eq.1 before with earlier | rfl
        · exact idle later after earlier
        · exact fetches
      · rw [state_step_of_not_fetches fetches]
        exact same

/-- **The bus is coherent after every fetch.** On a loaded program, with whatever input and after any number
of steps of which one has fetched, `MBR` is the word of the cell at `MAR`. There is a last step that fetched;
`IR` is the word that it found at the counter, and the counter is behind that word unless the step took a
branch. -/
theorem bus_coherent (m : Machine ι) {p : Program} (h : p.Loadable) {count : Nat}
    (fetched : 0 < (m.load p).next.fetchCount count) :
    let start := (m.load p).next
    let now := (start.steps count).next
    now.state.BusCoherent ∧
      ∃ last < count, (start.steps last).next.fetches = true ∧
        (∀ later, last < later → later < count → (start.steps later).next.fetches = false) ∧
        (start.steps last).next.Fetched now.state := by
  intro start now
  have range : start.state.InRange := by
    have hstart : start = ⟨p.loadedState, p, none, m.input, h.extent_le⟩ := m.load_next h
    rw [hstart]
    exact h.inRange
  obtain ⟨last, below, hlast, idle, same⟩ := exists_last_fetch fetched
  have before := (inRange_steps last range).1
  have state : now.state = (start.steps last).next.step.next.state := same
  rw [state]
  exact ⟨(busCoherent_step before hlast).1, last, below, hlast, idle, fetched_step before hlast⟩

/-- `LOAD 3; STORE 1; ADD 3` with 999 in cell 3. The `STORE` writes over itself, and the `ADD` overflows. -/
def overstored : Program := .ofWords [503, 301, 103, 999]

/-- Before the first fetch the bus shows nothing: `MBR` is zero, and the cell at `MAR` is not. -/
example : ¬ ((new ([] : List Int)).load overstored).next.state.BusCoherent := by decide +kernel

/-- After the `STORE` its word is in `IR` alone. The fault leaves the operand of the `ADD` on the bus, also
after two steps more. -/
theorem bus_coherent_overstored :
    let start := ((new ([] : List Int)).load overstored).next
    overstored.Loadable ∧ 0 < start.fetchCount 2 ∧ 0 < start.fetchCount 5 ∧
      (start.steps 2).next.state.BusCoherent ∧ (start.steps 5).next.state.BusCoherent ∧
      (start.steps 2).next.state.registers = ⟨2, 999, 301, 1, 999⟩ ∧
      (start.steps 5).next.state.registers = ⟨3, 999, 103, 3, 999⟩ := by
  have fits : overstored.Loadable := by decide
  have stored : 0 < ((new ([] : List Int)).load overstored).next.fetchCount 2 := by decide +kernel
  have faulted : 0 < ((new ([] : List Int)).load overstored).next.fetchCount 5 := by decide +kernel
  exact ⟨fits, stored, faulted, ((new []).bus_coherent fits stored).1,
    ((new []).bus_coherent fits faulted).1, by decide +kernel, by decide +kernel⟩

end Machine
end DecimalMachine
