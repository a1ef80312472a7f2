/-
# Numbers of steps

`Machine.steps` composes like addition, a stopped machine stays as it is, and a run until the
machine stops is a number of steps. A property that one step keeps is kept by any number of them:
the ranges, and with them the absence of violations.
-/

import DecimalMachine.Proofs.Machine.Invariant

namespace DecimalMachine
namespace Machine

variable {ι : Type} [InputSource ι] {m : Machine ι}

/-- Steps begin with one step. -/
theorem steps_succ (count : Nat) (m : Machine ι) :
    m.steps (count + 1) =
      ⟨(m.step.next.steps count).next, m.step.journal ++ (m.step.next.steps count).journal,
        m.step.result :: (m.step.next.steps count).result⟩ := rfl

/-- Steps after steps are one number of steps. -/
theorem steps_add (a b : Nat) (m : Machine ι) :
    m.steps (a + b) =
      ⟨((m.steps a).next.steps b).next, (m.steps a).journal ++ ((m.steps a).next.steps b).journal,
        (m.steps a).result ++ ((m.steps a).next.steps b).result⟩ := by
  induction a generalizing m with
  | zero => rw [Nat.zero_add]; rfl
  | succ a ih =>
    rw [Nat.succ_add, steps_succ, ih, steps_succ]
    simp only [List.append_assoc, List.cons_append]

/-- Steps keep the program. -/
theorem program_steps (count : Nat) (m : Machine ι) : (m.steps count).next.program = m.program := by
  induction count generalizing m with
  | zero => rfl
  | succ count ih =>
    rw [steps_succ]
    exact (ih m.step.next).trans (program_step m)

/-- A machine that is stopped does nothing, however often it is stepped. -/
theorem steps_of_isStopped (h : m.isStopped = true) (count : Nat) :
    m.steps count = ⟨m, [], List.replicate count (.ok false)⟩ := by
  induction count with
  | zero => rfl
  | succ count ih =>
    rw [steps_succ, step_of_isStopped h]
    dsimp only
    rw [ih]
    rfl

/-- **Steps keep the ranges** and make no mistake. -/
theorem inRange_steps (count : Nat) (h : m.state.InRange) :
    (m.steps count).next.state.InRange ∧ (∀ e ∈ (m.steps count).journal.events, e.InRange) ∧
      ∀ result ∈ (m.steps count).result, ∃ goesOn, result = .ok goesOn := by
  induction count generalizing m with
  | zero => exact ⟨h, nofun, nofun⟩
  | succ count ih =>
    obtain ⟨hnext, hevents⟩ := inRange_step h
    obtain ⟨hlast, hrest, hresults⟩ := ih hnext
    rw [steps_succ]
    refine ⟨hlast, ?_, ?_⟩
    · rw [Journal.events_append, List.forall_mem_append]
      exact ⟨hevents, hrest⟩
    · rw [List.forall_mem_cons]
      exact ⟨step_result_of_inRange h, hresults⟩

/-- A run is a number of steps, and a violation that ends it is one of a step. -/
theorem runFrom_eq_steps (before : Array Emission) (done limit : Nat) (m : Machine ι) :
    ∃ count, (m.runFrom before done limit).machine = (m.steps count).next ∧
      (m.runFrom before done limit).journal.toList = before.toList ++ (m.steps count).journal ∧
      ∀ violation, (m.runFrom before done limit).ending = .violated violation →
        .error violation ∈ (m.steps count).result := by
  induction limit generalizing before done m with
  | zero => exact ⟨0, rfl, (List.append_nil _).symm, nofun⟩
  | succ limit ih =>
    have hjournal : (before ++ m.step.journal).toList = before.toList ++ m.step.journal :=
      Array.toList_appendList
    have hone : (m.steps 1).journal = m.step.journal := List.append_nil _
    unfold runFrom
    dsimp only
    split
    · obtain ⟨count, hmachine, hrest, hending⟩ :=
        ih (before ++ m.step.journal) (done + 1) m.step.next
      refine ⟨count + 1, hmachine, ?_, fun violation h => ?_⟩
      · rw [hrest, hjournal, steps_succ, List.append_assoc]
      · exact List.mem_cons_of_mem _ (hending violation h)
    · exact ⟨1, rfl, by rw [hone]; exact hjournal, nofun⟩
    · next violation hresult =>
      refine ⟨1, rfl, by rw [hone]; exact hjournal, fun other h => ?_⟩
      cases h
      exact List.mem_singleton.2 hresult.symm

/-- **A run is a number of steps**, and ends as a violation only if one of them does. -/
theorem run_eq_steps (limit : Nat) (m : Machine ι) :
    ∃ count, (m.run limit).machine = (m.steps count).next ∧
      (m.run limit).journal.toList = (m.steps count).journal ∧
      ∀ violation, (m.run limit).ending = .violated violation →
        .error violation ∈ (m.steps count).result :=
  m.runFrom_eq_steps #[] 0 limit

end Machine
end DecimalMachine
