/-
# How far a machine gets between branches

A fetch moves the counter on by one, and nothing but a branch that is taken moves it elsewhere. So the
distance of the counter to the end of the program, `Machine.remaining`, goes down with every step that
fetches, and only a taken branch can raise it again, to the extent of the program at most
(`fetches_add_remaining_le`). Added up over a run this bounds what it fetches by what it branches
(`fetchCount_add_remaining_le`).

Nothing is said of the words that are fetched: the bound holds of programs that write themselves anew.
-/

import DecimalMachine.Proofs.Listing.Rows
import DecimalMachine.Proofs.Machine.Fetches

namespace DecimalMachine

/-- Whether an instruction is a branch that is taken with this number in the accumulator. -/
def Instruction.branchesAt (i : Instruction) (ac : Int) : Bool :=
  match i.opcode with
  | .branch => true
  | .brz => decide (ac = 0)
  | .brp => decide (0 ≤ ac)
  | _ => false

/-- Whether an instruction can send control elsewhere, or write the instruction that will. -/
def Opcode.isBranching : Opcode → Bool
  | store | branch | brz | brp => true
  | _ => false

/-- None of the first cells holds an instruction that can send control elsewhere, or write one that will. -/
def Memory.Straight (m : Memory) (extent : Nat) : Prop :=
  ∀ address < extent, (Instruction.decode? (m.get address)).any (·.opcode.isBranching) = false

instance (m : Memory) (extent : Nat) : Decidable (m.Straight extent) :=
  inferInstanceAs (Decidable (∀ address < extent, _ = false))

/-- Only a branch is taken. -/
theorem Instruction.branchesAt_of_not_isBranching {i : Instruction}
    (h : i.opcode.isBranching = false) (ac : Int) : i.branchesAt ac = false := by
  obtain ⟨op, operand⟩ := i
  cases op <;> first | rfl | cases h

namespace Progress

variable {ι : Type} (p : Progress ι)

/-- A result leaves the counter alone. -/
theorem pc_accept (op : Opcode) (address : Nat) (value : Int) :
    (p.accept op address value).1.machine.state.pc = p.machine.state.pc := by
  unfold accept
  split <;> rfl

/-- A store leaves the counter alone. -/
theorem pc_store (operand : Nat) :
    (p.store operand).1.machine.state.pc = p.machine.state.pc := by
  unfold store
  dsimp only
  split <;> rfl

/-- A branch that is taken sets the counter to its operand. -/
theorem pc_branch (operand : Nat) (taken : Prop) [Decidable taken] :
    (p.branch operand taken).machine.state.pc =
      if decide taken then (operand : Int) else p.machine.state.pc := by
  unfold branch
  split
  · next yes => rw [if_pos (decide_eq_true yes)]; rfl
  · next no => rw [if_neg (mt of_decide_eq_true no)]

/-- A result leaves the memory alone. -/
theorem memory_accept (op : Opcode) (address : Nat) (value : Int) :
    (p.accept op address value).1.machine.state.memory = p.machine.state.memory := by
  unfold accept
  split <;> rfl

/-- A branch leaves the memory alone. -/
theorem memory_branch (operand : Nat) (taken : Prop) [Decidable taken] :
    (p.branch operand taken).machine.state.memory = p.machine.state.memory := by
  unfold branch
  split <;> rfl

variable [InputSource ι]

/-- `INPUT` leaves the counter alone. -/
theorem pc_receive (address : Nat) :
    (p.receive address).1.machine.state.pc = p.machine.state.pc := by
  unfold receive
  split
  · rfl
  · exact pc_accept _ .input address _

/-- `INPUT` leaves the memory alone. -/
theorem memory_receive (address : Nat) :
    (p.receive address).1.machine.state.memory = p.machine.state.memory := by
  unfold receive
  split
  · rfl
  · exact memory_accept _ .input address _

/-- **Only a branch that is taken moves the counter**, and it moves it to its operand. -/
theorem pc_execute (address : Nat) (i : Instruction) :
    (p.execute address i).1.machine.state.pc =
      if i.branchesAt p.machine.state.ac then (i.operand : Int) else p.machine.state.pc := by
  unfold execute Instruction.branchesAt
  cases i.opcode with
  | halt | nop | load | output => rfl
  | add | sub => exact pc_accept (p.readCell i.operand) _ address _
  | store => exact p.pc_store i.operand
  | branch | brz | brp => exact p.pc_branch i.operand _
  | input => exact p.pc_receive address

/-- Only `STORE` writes memory. -/
theorem memory_execute (address : Nat) {i : Instruction} (h : i.opcode ≠ .store) :
    (p.execute address i).1.machine.state.memory = p.machine.state.memory := by
  unfold execute
  cases op : i.opcode with
  | halt | nop | load | output => rfl
  | add | sub => exact memory_accept (p.readCell i.operand) _ address _
  | store => exact absurd op h
  | branch | brz | brp => exact p.memory_branch i.operand _
  | input => exact p.memory_receive address

end Progress

namespace Machine

variable {ι : Type} [InputSource ι] {m : Machine ι}

/-! ### One step -/

/-- Whether the next step carries out a branch that is taken. -/
def branches (m : Machine ι) : Bool :=
  m.fetches && (Instruction.decode? m.word).any (·.branchesAt m.state.ac)

omit [InputSource ι] in
/-- How far the counter of a machine that can fetch is from the end of its program. -/
def remaining (m : Machine ι) : Nat :=
  if m.isStopped || m.pastEnd then 0 else m.program.extent - m.address

omit [InputSource ι] in
/-- Not more cells are ahead than the program has. -/
theorem remaining_le (m : Machine ι) : m.remaining ≤ m.program.extent := by
  unfold remaining
  split <;> omega

/-- What is left of a cycle that fetches is the execution, or the fetch of a word that stands for nothing. -/
theorem cycle_machine (inside : m.pastEnd = false) :
    m.cycle.1.machine =
      match Instruction.decode? m.word with
      | none => m.fetched.machine
      | some i => (m.executed i).1.machine := by
  rw [cycle_of_inside inside]
  cases Instruction.decode? m.word with
  | none => rfl
  | some i =>
    dsimp only
    split <;> rfl

omit [InputSource ι] in
/-- The end of a step leaves the state alone. -/
theorem state_settle (p : Progress ι) (ending : Ending) :
    (p.settle ending).next.state = p.machine.state := by
  rcases ending with _ | ⟨_ | _⟩ | _ | _ <;> rfl

/-- **A step that fetches and takes no branch** moves the counter on by one, however it ends. -/
theorem pc_step_of_not_branches (fetches : m.fetches = true) (straight : m.branches = false) :
    m.step.next.state.pc = m.state.pc + 1 := by
  rw [branches, fetches, Bool.true_and] at straight
  rw [fetches_eq, Bool.and_eq_true, Bool.not_eq_true', Bool.not_eq_true'] at fetches
  obtain ⟨going, inside⟩ := fetches
  obtain ⟨hpc, hac, -, -⟩ := m.frame_fetched
  rw [step_of_not_isStopped going, state_settle, cycle_machine inside,
    ← (m.address_lt_extent inside).1]
  cases decoded : Instruction.decode? m.word with
  | none => exact hpc
  | some i =>
    rw [decoded, Option.any_some] at straight
    have hexecuted : (m.executed i).1.machine.state.pc =
        if i.branchesAt m.fetched.machine.state.ac then (i.operand : Int)
        else m.fetched.machine.state.pc := Progress.pc_execute _ m.address i
    rw [hac, straight, if_neg Bool.false_ne_true, hpc] at hexecuted
    exact hexecuted

/-- A step that goes on has fetched. -/
theorem fetches_of_goesOn (h : m.step.result = .ok true) : m.fetches = true := by
  rw [fetches_eq]
  cases stopped : m.isStopped with
  | true =>
    rw [step_of_isStopped stopped] at h
    cases h
  | false =>
    cases inside : m.pastEnd with
    | true =>
      rw [step_of_not_isStopped stopped, cycle_of_pastEnd inside] at h
      cases h
    | false => rfl

/-- A step that does not fetch leaves a machine that is stopped. -/
theorem remaining_step_of_not_fetches (h : m.fetches = false) : m.step.next.remaining = 0 := by
  rw [fetches_eq] at h
  cases stopped : m.isStopped with
  | true =>
    rw [step_of_isStopped stopped, remaining, stopped]
    rfl
  | false =>
    have outside : m.pastEnd = true := by simpa [stopped] using h
    have halts : m.step.result = .ok false := by
      rw [step_of_not_isStopped stopped, cycle_of_pastEnd outside]
      rfl
    rw [remaining, isStopped_step halts]
    rfl

/-- **A step that fetches brings the end nearer**, unless it takes a branch. -/
theorem fetches_add_remaining_le (m : Machine ι) :
    m.fetches.toNat + m.step.next.remaining ≤
      m.remaining + m.branches.toNat * m.program.extent := by
  cases fetches : m.fetches with
  | false =>
    rw [remaining_step_of_not_fetches fetches]
    simp
  | true =>
    have hfetches := fetches
    rw [fetches_eq, Bool.and_eq_true, Bool.not_eq_true', Bool.not_eq_true'] at hfetches
    obtain ⟨going, inside⟩ := hfetches
    obtain ⟨haddress, hextent⟩ := m.address_lt_extent inside
    have hremaining : m.remaining = m.program.extent - m.address := by
      rw [remaining, going, inside]
      rfl
    cases branches : m.branches with
    | true =>
      have hnext := m.step.next.remaining_le
      rw [program_step] at hnext
      rw [hremaining, Bool.toNat_true]
      omega
    | false =>
      have hpc := pc_step_of_not_branches fetches branches
      have hnext : m.step.next.remaining ≤ m.program.extent - (m.address + 1) := by
        unfold remaining address
        rw [hpc, program_step]
        split <;> omega
      rw [hremaining, Bool.toNat_true, Bool.toNat_false]
      omega

/-! ### Runs -/

/-- How many of the next `count` steps take a branch. -/
def branchCount : (count : Nat) → Machine ι → Nat
  | 0, _ => 0
  | count + 1, m => m.branches.toNat + branchCount count m.step.next

/-- **What a run fetches is paid for** by the way to the end of the program, once at the start and once for
each branch that is taken. -/
theorem fetchCount_add_remaining_le (count : Nat) (m : Machine ι) :
    m.fetchCount count + (m.steps count).next.remaining ≤
      m.remaining + m.branchCount count * m.program.extent := by
  induction count generalizing m with
  | zero => simp [fetchCount, branchCount, steps]
  | succ count ih =>
    have hstep := m.fetches_add_remaining_le
    have hrest := ih m.step.next
    rw [program_step] at hrest
    rw [fetchCount, branchCount, steps_succ, Nat.add_mul]
    dsimp only
    omega

/-- A machine that is not stopped after some steps was not stopped before. -/
theorem going_of_steps {count : Nat} (going : (m.steps count).next.isStopped = false) :
    m.isStopped = false := by
  rw [← Bool.not_eq_true]
  intro stopped
  rw [steps_of_isStopped stopped, stopped] at going
  cases going

/-- A step after which the machine is not stopped went on. -/
theorem goesOn_of_going (range : m.state.InRange) (going : m.step.next.isStopped = false) :
    m.step.result = .ok true := by
  obtain ⟨_ | _, hresult⟩ := step_result_of_inRange range
  · rw [isStopped_step hresult] at going
    cases going
  · exact hresult

/-- A step that goes on leaves something to fetch, for the next step would halt at once otherwise. -/
theorem remaining_pos_of_goesOn (h : m.step.result = .ok true) : 0 < m.step.next.remaining := by
  obtain ⟨running, inside⟩ := step_goesOn h
  have hextent := (m.step.next.address_lt_extent inside).2
  rw [remaining, inside, isStopped, running]
  show 0 < m.step.next.program.extent - m.step.next.address
  omega

/-- A machine that is not stopped after some steps fetched in each, and is within its program. -/
theorem fetchCount_of_going (range : m.state.InRange) {count : Nat}
    (going : (m.steps (count + 1)).next.isStopped = false) :
    m.fetchCount (count + 1) = count + 1 ∧ 0 < (m.steps (count + 1)).next.remaining := by
  induction count generalizing m with
  | zero =>
    have goesOn := goesOn_of_going range going
    rw [fetchCount, fetches_of_goesOn goesOn]
    exact ⟨rfl, remaining_pos_of_goesOn goesOn⟩
  | succ count ih =>
    rw [steps_succ] at going ⊢
    have goesOn := goesOn_of_going range (going_of_steps going)
    obtain ⟨hcount, hremaining⟩ := ih (inRange_step range).1 going
    rw [fetchCount, fetches_of_goesOn goesOn, hcount, Bool.toNat_true]
    exact ⟨by omega, hremaining⟩

/-- A machine stops within as many steps as the way to the end and its branches pay for. -/
theorem isStopped_of_paid (range : m.state.InRange) {count : Nat} (positive : 0 < count)
    (paid : m.remaining + m.branchCount count * m.program.extent ≤ count) :
    (m.steps count).next.isStopped = true := by
  obtain ⟨count, rfl⟩ : ∃ fewer, count = fewer + 1 := ⟨count - 1, by omega⟩
  rw [← Bool.not_eq_false]
  intro going
  obtain ⟨hcount, hremaining⟩ := fetchCount_of_going range going
  have hbound := m.fetchCount_add_remaining_le (count + 1)
  omega

/-- **A run fetches at most the extent of the program for each branch that it takes, and once more.** -/
theorem fetchCount_le (m : Machine ι) (count : Nat) :
    m.fetchCount count ≤ (m.branchCount count + 1) * m.program.extent := by
  have paid := m.fetchCount_add_remaining_le count
  have way := m.remaining_le
  rw [Nat.succ_mul]
  omega

/-- **A run that has had that many steps is over.** -/
theorem isStopped_of_le (range : m.state.InRange) {count : Nat} (positive : 0 < count)
    (enough : (m.branchCount count + 1) * m.program.extent ≤ count) :
    (m.steps count).next.isStopped = true := by
  have way := m.remaining_le
  rw [Nat.succ_mul] at enough
  exact isStopped_of_paid range positive (by omega)

/-- As many steps in a row as the extent take a branch or reach the stop. -/
theorem branched_or_isStopped (range : m.state.InRange) {count : Nat} (positive : 0 < count)
    (enough : m.program.extent ≤ count) :
    0 < m.branchCount count ∨ (m.steps count).next.isStopped = true := by
  rcases Nat.eq_zero_or_pos (m.branchCount count) with none | branched
  · refine .inr (isStopped_of_le range positive ?_)
    rw [none, Nat.zero_add, Nat.one_mul]
    exact enough
  · exact .inl branched

/-! ### Programs without branches -/

omit [InputSource ι] in
/-- The instruction at the counter of a machine without branches. -/
theorem not_isBranching (straight : m.state.memory.Straight m.program.extent)
    (inside : m.pastEnd = false) {i : Instruction}
    (decoded : Instruction.decode? m.word = some i) : i.opcode.isBranching = false := by
  have branchless := straight m.address (m.address_lt_extent inside).2
  rw [← word, decoded, Option.any_some] at branchless
  exact branchless

/-- In a memory without branches none is taken. -/
theorem branches_of_straight (h : m.state.memory.Straight m.program.extent) :
    m.branches = false := by
  unfold branches
  rw [fetches_eq]
  cases inside : m.pastEnd with
  | true => simp
  | false =>
    cases decoded : Instruction.decode? m.word with
    | none => simp
    | some i => simp [Instruction.branchesAt_of_not_isBranching (not_isBranching h inside decoded)]

/-- A machine without branches keeps its memory. -/
theorem memory_step_of_straight (h : m.state.memory.Straight m.program.extent) :
    m.step.next.state.memory = m.state.memory := by
  cases stopped : m.isStopped with
  | true => rw [step_of_isStopped stopped]
  | false =>
    rw [step_of_not_isStopped stopped, state_settle]
    cases inside : m.pastEnd with
    | true => rw [cycle_of_pastEnd inside]
    | false =>
      rw [cycle_machine inside]
      obtain ⟨-, -, hmemory, -⟩ := m.frame_fetched
      cases decoded : Instruction.decode? m.word with
      | none => exact hmemory
      | some i =>
        have notStore : i.opcode ≠ .store := by
          intro store
          have branching := not_isBranching h inside decoded
          rw [store] at branching
          cases branching
        exact ((m.fetched.announce m.address i).memory_execute m.address notStore).trans hmemory

/-- As long as the memory has no branches, none is taken in any number of steps. -/
theorem branchCount_of_straight (h : m.state.memory.Straight m.program.extent) (count : Nat) :
    m.branchCount count = 0 := by
  induction count generalizing m with
  | zero => rfl
  | succ count ih =>
    have hnext : m.step.next.state.memory.Straight m.step.next.program.extent := by
      rw [memory_step_of_straight h, program_step]
      exact h
    rw [branchCount, branches_of_straight h, ih hnext]
    rfl

/-! ### Loaded programs -/

/-- Steps keep the program that was loaded. -/
theorem program_steps_load (m : Machine ι) {p : Program} (h : p.Loadable) (count : Nat) :
    ((m.load p).next.steps count).next.program = p := by
  rw [program_steps, load_next m h]

/-- **The branches of a run bound its length.** On a loaded program, and whatever it writes over its own words,
a step that goes on without taking a branch moves the counter on by one and leaves it within the program. So
a run fetches at most the extent of the program for each branch that it takes and once more, and then it is
over; and as many steps in a row as the extent (one, if the program is empty) take a branch or reach the
stop. A program with no word that branches or stores fetches at most its extent, and stops. -/
theorem branches_bound_run (m : Machine ι) {p : Program} (h : p.Loadable) :
    let start := (m.load p).next
    (∀ done,
      let now := (start.steps done).next
      now.step.result = .ok true → now.branches = false →
        now.step.next.state.pc = now.state.pc + 1 ∧ now.step.next.state.pc < p.extent) ∧
    (∀ count,
      start.fetchCount count ≤ (start.branchCount count + 1) * p.extent ∧
        (0 < count → (start.branchCount count + 1) * p.extent ≤ count →
          (start.steps count).next.isStopped = true)) ∧
    (∀ done count, 0 < count → p.extent ≤ count →
      0 < (start.steps done).next.branchCount count ∨
        (start.steps (done + count)).next.isStopped = true) ∧
    ∀ image, p.image? = .ok image → image.Straight p.extent →
      ∀ count, start.fetchCount count ≤ p.extent ∧
        (0 < count → p.extent ≤ count → (start.steps count).next.isStopped = true) := by
  intro start
  have hstart : start = ⟨p.loadedState, p, none, m.input, h.extent_le⟩ := m.load_next h
  have range : start.state.InRange := by
    rw [hstart]
    exact h.inRange
  have extent : start.program.extent = p.extent := by rw [hstart]
  have bounded : ∀ count, start.fetchCount count ≤ (start.branchCount count + 1) * p.extent ∧
      (0 < count → (start.branchCount count + 1) * p.extent ≤ count →
        (start.steps count).next.isStopped = true) := by
    intro count
    rw [← extent]
    exact ⟨start.fetchCount_le count, isStopped_of_le range⟩
  refine ⟨?_, bounded, ?_, ?_⟩
  · intro done now goesOn straight
    refine ⟨pc_step_of_not_branches (fetches_of_goesOn goesOn) straight, ?_⟩
    have inside := now.step.next.address_lt_extent (step_goesOn goesOn).2
    rw [program_step, m.program_steps_load h] at inside
    omega
  · intro done count positive enough
    rw [steps_add]
    refine branched_or_isStopped (inRange_steps done range).1 positive ?_
    rw [m.program_steps_load h]
    exact enough
  · intro image himage straight count
    rw [h.image?] at himage
    obtain rfl := Except.ok.inj himage
    have branchless : start.branchCount count = 0 := by
      refine branchCount_of_straight ?_ count
      rw [hstart]
      exact straight
    have hbounded := bounded count
    rw [branchless, Nat.zero_add, Nat.one_mul] at hbounded
    exact hbounded

/-- `LOAD 4; STORE 2` writes a branch back to the start over the `HALT` behind it. -/
def selfWritten : Machine (List Int) := ((new []).load (.ofWords [504, 302, 0, 0, 600])).next

/-- A program that puts out the number that it reads. -/
def putOut : Machine (List Int) := ((new [7]).load (.ofWords [901, 902, 0])).next

/-- The branch that the first program wrote is taken twice in six steps. The second one has none, and stops
within three. -/
theorem branches_bound_selfWritten :
    (Program.ofWords [504, 302, 0, 0, 600]).Loadable ∧ (Program.ofWords [901, 902, 0]).Loadable ∧
      selfWritten.branchCount 6 = 2 ∧ selfWritten.fetchCount 6 ≤ (2 + 1) * 5 ∧
      (putOut.steps 3).next.isStopped = true := by
  have fits : (Program.ofWords [504, 302, 0, 0, 600]).Loadable := by decide
  have fitsStraight : (Program.ofWords [901, 902, 0]).Loadable := by decide
  have branched : selfWritten.branchCount 6 = 2 := by decide +kernel
  obtain ⟨-, bounded, -, -⟩ := branches_bound_run (new ([] : List Int)) fits
  obtain ⟨-, -, -, straight⟩ := branches_bound_run (new ([7] : List Int)) fitsStraight
  have fetched : selfWritten.fetchCount 6 ≤ (selfWritten.branchCount 6 + 1) * 5 := (bounded 6).1
  rw [branched] at fetched
  have stopped := (straight _ fitsStraight.image? (by decide +kernel) 3).2 (by decide) (by decide)
  exact ⟨fits, fitsStraight, branched, fetched, stopped⟩

end Machine
end DecimalMachine
