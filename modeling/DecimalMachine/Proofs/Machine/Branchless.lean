/-
# Programs that hold no branch

A program that holds no branch when it is loaded can still write one: a `STORE` puts the accumulator into
any cell, and a cell that control comes to later is fetched as an instruction, whatever was put there. Such
a program may run for ever (`Machine.branchless_runs_forever`). It is the only way in which it can:

| a cell that a branch was fetched from | what it held when the program was loaded |
| --- | --- |
| no `STORE` before wrote to it | the branch, so that the program held one |
| a `STORE` before wrote to it | anything |

So a program that holds no branch halts within as many steps as there are cells, unless it comes to a branch
that it stored itself (`Machine.stops_or_takes_stored_branch`). The counter is in range in either case.

Route: a step changes a cell only if it is a `STORE` to it, so that a cell that has changed holds what some
step before stored there. The steps without a branch are counted by `branched_or_isStopped`.
-/

import DecimalMachine.Proofs.Assembly.WellFormed
import DecimalMachine.Proofs.Machine.Branches

namespace DecimalMachine

/-- Whether an instruction is a branch, taken or not. -/
def Opcode.isBranch : Opcode → Bool
  | branch | brz | brp => true
  | _ => false

/-- No cell holds a branch. -/
def Memory.Branchless (m : Memory) : Prop :=
  ∀ address < memorySize, (Instruction.decode? (m.get address)).any (·.opcode.isBranch) = false

instance (m : Memory) : Decidable m.Branchless :=
  inferInstanceAs (Decidable (∀ address < memorySize, _ = false))

/-- Only a branch is taken. -/
theorem Instruction.isBranch_of_branchesAt {i : Instruction} {ac : Int}
    (h : i.branchesAt ac = true) : i.opcode.isBranch = true := by
  obtain ⟨op, operand⟩ := i
  cases op <;> first | rfl | cases h

/-- A `STORE` leaves memory as it is, or with the accumulator in the cell of its operand. -/
theorem Progress.memory_store {ι : Type} (p : Progress ι) (operand : Nat) :
    (p.store operand).1.machine.state.memory = p.machine.state.memory ∨
      (p.store operand).1.machine.state.memory =
        p.machine.state.memory.set operand p.machine.state.ac := by
  unfold store
  dsimp only
  split
  · exact .inl rfl
  · exact .inr rfl

/-- A source text without errors is assembled into a program that fits. -/
theorem loadable_of_result {source : String} {p : Program} (h : (assemble source).result = .ok p) :
    p.Loadable := by
  unfold Assembly.result at h
  split at h
  · obtain rfl := Except.ok.inj h
    exact loadable_assemble source
  · cases h

namespace Machine

variable {ι : Type} [InputSource ι] {m : Machine ι}

/-- A step fetches unless the machine is stopped or behind its program. -/
theorem fetches_iff : m.fetches = true ↔ m.isStopped = false ∧ m.pastEnd = false := by
  rw [fetches_eq, Bool.and_eq_true, Bool.not_eq_true', Bool.not_eq_true']

/-- The next step carries out a `STORE` of a word into a cell. -/
def Stores (m : Machine ι) (cell : Nat) (word : Int) : Prop :=
  m.fetches = true ∧ Instruction.decode? m.word = some ⟨.store, cell⟩ ∧ m.state.ac = word

instance (m : Machine ι) (cell : Nat) (word : Int) : Decidable (m.Stores cell word) :=
  inferInstanceAs (Decidable (_ ∧ _))

/-! ### What is in a cell -/

/-- A machine that does not fetch keeps its state. -/
theorem state_step_of_not_fetches (h : m.fetches = false) : m.step.next.state = m.state := by
  rw [fetches_eq] at h
  cases stopped : m.isStopped with
  | true => rw [step_of_isStopped stopped]
  | false =>
    have outside : m.pastEnd = true := by simpa [stopped] using h
    rw [step_of_not_isStopped stopped, state_settle, cycle_of_pastEnd outside]

/-- An instruction leaves memory as it is, or is a `STORE` of the accumulator into its operand. -/
theorem memory_executed (m : Machine ι) (i : Instruction) :
    (m.executed i).1.machine.state.memory = m.state.memory ∨
      i.opcode = .store ∧
        (m.executed i).1.machine.state.memory = m.state.memory.set i.operand m.state.ac := by
  obtain ⟨-, hac, hmemory, -⟩ := m.frame_fetched
  by_cases store : i.opcode = .store
  · have hstore : (m.executed i).1 = ((m.fetched.announce m.address i).store i.operand).1 := by
      rw [executed, Progress.execute, store]
    rw [hstore, ← hac, ← hmemory]
    exact ((m.fetched.announce m.address i).memory_store i.operand).imp_right (⟨store, ·⟩)
  · left
    exact ((m.fetched.announce m.address i).memory_execute m.address store).trans hmemory

/-- **A step leaves a cell as it is, or stores there what the cell holds after it.** -/
theorem get_memory_step (m : Machine ι) (cell : Nat) :
    m.step.next.state.memory.get cell = m.state.memory.get cell ∨
      m.Stores cell (m.step.next.state.memory.get cell) := by
  cases fetches : m.fetches with
  | false =>
    left
    rw [state_step_of_not_fetches fetches]
  | true =>
    obtain ⟨going, inside⟩ := fetches_iff.1 fetches
    rw [step_of_not_isStopped going, state_settle, cycle_machine inside]
    cases decoded : Instruction.decode? m.word with
    | none => exact .inl (congrArg (Memory.get · cell) m.frame_fetched.2.2.1)
    | some i =>
      dsimp only
      rcases m.memory_executed i with kept | ⟨store, written⟩
      · exact .inl (congrArg (Memory.get · cell) kept)
      · rw [written]
        by_cases same : i.operand = cell
        · right
          subst same
          refine ⟨fetches, ?_, ?_⟩
          · rw [decoded, ← store]
          · exact (Memory.get_set_self _ (Instruction.operand_lt_of_decode? decoded) _).symm
        · exact .inl (Memory.get_set_of_ne _ same _)

/-- **A cell that has changed holds what a step stored there.** -/
theorem exists_stores_of_changed {count cell : Nat}
    (changed : (m.steps count).next.state.memory.get cell ≠ m.state.memory.get cell) :
    ∃ done < count,
      (m.steps done).next.Stores cell ((m.steps count).next.state.memory.get cell) := by
  induction count with
  | zero => exact absurd rfl changed
  | succ count ih =>
    have last : (m.steps (count + 1)).next = (m.steps count).next.step.next := by
      rw [steps_add]
      rfl
    rw [last] at changed ⊢
    rcases (m.steps count).next.get_memory_step cell with kept | stores
    · rw [kept] at changed ⊢
      obtain ⟨done, below, stores⟩ := ih changed
      exact ⟨done, by omega, stores⟩
    · exact ⟨count, by omega, stores⟩

/-! ### Results of steps -/

/-- Steps after which a machine is stopped tell so. -/
theorem mem_result_of_isStopped (range : m.state.InRange) (going : m.isStopped = false)
    {count : Nat} (stopped : (m.steps count).next.isStopped = true) :
    .ok false ∈ (m.steps count).result := by
  induction count generalizing m with
  | zero =>
    have same : m.isStopped = true := stopped
    rw [going] at same
    cases same
  | succ count ih =>
    rw [steps_succ] at stopped ⊢
    obtain ⟨goesOn, hresult⟩ := step_result_of_inRange range
    cases goesOn with
    | false => exact List.mem_cons.2 (.inl hresult.symm)
    | true =>
      have running : m.step.next.isStopped = false := by
        rw [isStopped, (step_goesOn hresult).1]
        rfl
      exact List.mem_cons_of_mem _ (ih (inRange_step range).1 running stopped)

/-- A step that told so left a machine that is still stopped after the steps behind it. -/
theorem isStopped_of_mem_result {count : Nat} (h : .ok false ∈ (m.steps count).result) :
    (m.steps count).next.isStopped = true := by
  induction count generalizing m with
  | zero => exact absurd h List.not_mem_nil
  | succ count ih =>
    rw [steps_succ] at h ⊢
    rcases List.mem_cons.1 h with now | later
    · have stopped := isStopped_step now.symm
      rw [steps_of_isStopped stopped]
      exact stopped
    · exact ih later

/-- A machine that a step leaves as it is stays so. -/
theorem steps_of_fixed (fixed : m.step.next = m) (count : Nat) : (m.steps count).next = m := by
  induction count with
  | zero => rfl
  | succ count ih => rw [steps_succ, fixed, ih]

/-- If branches were taken, one was taken in some step. -/
theorem exists_branches_of_branchCount {count : Nat} (h : 0 < m.branchCount count) :
    ∃ done < count, (m.steps done).next.branches = true := by
  induction count generalizing m with
  | zero => exact absurd h (Nat.lt_irrefl 0)
  | succ count ih =>
    rw [branchCount] at h
    cases branches : m.branches with
    | true => exact ⟨0, Nat.succ_pos count, branches⟩
    | false =>
      rw [branches, Bool.toNat_false, Nat.zero_add] at h
      obtain ⟨done, below, later⟩ := ih h
      exact ⟨done + 1, by omega, later⟩

/-- A branch that is taken is the word of a cell. -/
theorem isBranch_of_branches (h : m.branches = true) :
    m.address < memorySize ∧ (Instruction.decode? m.word).any (·.opcode.isBranch) = true := by
  rw [branches, Bool.and_eq_true] at h
  obtain ⟨fetches, taken⟩ := h
  refine ⟨m.address_lt_of_pastEnd (fetches_iff.1 fetches).2, ?_⟩
  cases decoded : Instruction.decode? m.word with
  | none =>
    rw [decoded] at taken
    cases taken
  | some i =>
    rw [decoded, Option.any_some] at taken
    rw [Option.any_some]
    exact Instruction.isBranch_of_branchesAt taken

/-- **A branch that is taken was there from the beginning, or was stored.** -/
theorem exists_stores_of_branches (branchless : m.state.memory.Branchless) {count : Nat}
    (h : (m.steps count).next.branches = true) :
    ∃ done < count,
      (m.steps done).next.Stores (m.steps count).next.address (m.steps count).next.word := by
  obtain ⟨below, branch⟩ := isBranch_of_branches h
  refine exists_stores_of_changed fun same => ?_
  have none := branchless (m.steps count).next.address below
  rw [← same] at none
  exact Bool.false_ne_true (none.symm.trans branch)

/-! ### Loaded programs -/

/-- **A program that holds no branch halts, unless it comes to one that it stored.** After a load of a
program that was assembled without errors and whose image holds no branch, the counter is never outside
`0..=100`, and one of the first 100 steps says that the machine does not go on. Otherwise one of them takes a
branch, and one before it stored the word of this branch into the cell that the branch is fetched from. -/
theorem stops_or_takes_stored_branch (m : Machine ι) {source : String} {p : Program}
    (assembled : (assemble source).result = .ok p) {image : Memory} (himage : p.image? = .ok image)
    (branchless : image.Branchless) :
    let start := (m.load p).next
    (∀ count, 0 ≤ (start.steps count).next.state.pc ∧ (start.steps count).next.state.pc ≤ 100) ∧
      (.ok false ∈ (start.steps 100).result ∨
        ∃ writing taking, writing < taking ∧ taking < 100 ∧
          (start.steps taking).next.branches = true ∧
          (start.steps writing).next.Stores (start.steps taking).next.address
            (start.steps taking).next.word) := by
  intro start
  have loadable : p.Loadable := loadable_of_result assembled
  rw [loadable.image?] at himage
  obtain rfl := Except.ok.inj himage
  have hstart : start = ⟨p.loadedState, p, none, m.input, loadable.extent_le⟩ :=
    m.load_next loadable
  have range : start.state.InRange := by
    rw [hstart]
    exact loadable.inRange
  have bare : start.state.memory.Branchless := by
    rw [hstart]
    exact branchless
  have extent : start.program.extent ≤ 100 := by
    rw [hstart]
    exact loadable.extent_le
  refine ⟨fun count => (inRange_steps count range).1.registers .pc, ?_⟩
  rcases branched_or_isStopped range (by decide : 0 < 100) extent with branched | stopped
  · right
    obtain ⟨taking, below, branches⟩ := exists_branches_of_branchCount branched
    obtain ⟨writing, before, stores⟩ := exists_stores_of_branches bare branches
    exact ⟨writing, taking, before, below, branches, stores⟩
  · left
    refine mem_result_of_isStopped range ?_ stopped
    rw [hstart]
    rfl

/-- A program that adds up the word of a branch, and stores it in the cell that control comes to next. -/
def summedBranch : String := "LDA 4\nADD 5\nSTO 3\nHLT\nDAT 500\nDAT 103"

/-- A machine with this program. -/
def summing : Machine (List Int) := ((new []).load (assemble summedBranch).program).next

/-- It does not halt: the third step stores the branch that the fourth one takes. -/
theorem stops_or_takes_stored_branch_summing :
    (assemble summedBranch).result = .ok (assemble summedBranch).program ∧
      (∃ image, (assemble summedBranch).program.image? = .ok image ∧ image.Branchless) ∧
      ∃ writing taking, writing < taking ∧ taking < 100 ∧
        (summing.steps taking).next.branches = true ∧
        (summing.steps writing).next.Stores (summing.steps taking).next.address
          (summing.steps taking).next.word := by
  have assembled : (assemble summedBranch).result = .ok (assemble summedBranch).program :=
    if_pos (by decide +kernel)
  have himage := (loadable_of_result assembled).image?
  have branchless :
      (Program.writeAll .zero (assemble summedBranch).program.entries).Branchless := by
    decide +kernel
  refine ⟨assembled, ⟨_, himage, branchless⟩, ?_⟩
  obtain ⟨-, stops | takes⟩ :=
    stops_or_takes_stored_branch (new ([] : List Int)) assembled himage branchless
  · have going : (summing.steps 100).next.isStopped = false := by decide +kernel
    exact absurd (isStopped_of_mem_result stops) (Bool.eq_false_iff.1 going)
  · exact takes

/-- **A program without a branch in it may run for ever**, and without any input. The branch that this one
stores is one to its own cell, so that from the fifth step on nothing changes any more. -/
theorem branchless_runs_forever :
    ∃ p image, (assemble summedBranch).result = .ok p ∧ p.image? = .ok image ∧ image.Branchless ∧
      ∀ count, .ok false ∉ (((new ([] : List Int)).load p).next.steps count).result := by
  have assembled : (assemble summedBranch).result = .ok (assemble summedBranch).program :=
    if_pos (by decide +kernel)
  have fixed : (summing.steps 4).next.step.next = (summing.steps 4).next := by decide +kernel
  have going : (summing.steps 4).next.isStopped = false := by decide +kernel
  refine ⟨_, _, assembled, (loadable_of_result assembled).image?, by decide +kernel, fun count stops => ?_⟩
  have later : (summing.steps (4 + count)).next.isStopped = true := by
    have stopped : (summing.steps count).next.isStopped = true := isStopped_of_mem_result stops
    rw [Nat.add_comm, steps_add, steps_of_isStopped stopped]
    exact stopped
  rw [steps_add, steps_of_fixed fixed, going] at later
  cases later

end Machine
end DecimalMachine
