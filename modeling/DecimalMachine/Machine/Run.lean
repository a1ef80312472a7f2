/-
# Runs of steps

`Machine.steps` takes a number of steps whatever their results are, and `Machine.run` goes on as long
as the steps say so.
-/

import DecimalMachine.Machine.Step

namespace DecimalMachine
namespace Machine

variable {ι : Type}

/-- Why a run of steps ended. -/
inductive RunEnd where
  /-- The machine stopped. -/
  | stopped
  /-- The limit of steps was reached. -/
  | limit
  | violated (violation : Violation)
  deriving DecidableEq, Repr

/-- What a run of steps leaves behind. -/
structure Run (ι : Type) where
  machine : Machine ι
  journal : Array Emission
  /-- Number of steps after which the machine went on. -/
  steps : Nat
  ending : RunEnd

/-- Goes on after `done` steps that left the journal `before`, for at most `limit` more steps. -/
def runFrom [InputSource ι] (before : Array Emission) (done : Nat) :
    (limit : Nat) → Machine ι → Run ι
  | 0, m => ⟨m, before, done, .limit⟩
  | limit + 1, m =>
    let turn := m.step
    match turn.result with
    | .ok true => runFrom (before ++ turn.journal) (done + 1) limit turn.next
    | .ok false => ⟨turn.next, before ++ turn.journal, done, .stopped⟩
    | .error violation => ⟨turn.next, before ++ turn.journal, done, .violated violation⟩

/-- Steps until the machine stops, for at most `limit` steps. -/
def run [InputSource ι] (limit : Nat) (m : Machine ι) : Run ι := m.runFrom #[] 0 limit

/-- Takes a number of steps, each on its own even after one that stopped the machine. -/
def steps [InputSource ι] : Nat → Machine ι → Turn (Machine ι) (List (Except Violation Bool))
  | 0, m => ⟨m, [], []⟩
  | count + 1, m =>
    let first := m.step
    let rest := steps count first.next
    ⟨rest.next, first.journal ++ rest.journal, first.result :: rest.result⟩

end Machine
end DecimalMachine
