/-
# Controlled runs

A run executes cycle after cycle until the machine stops or a listener asks for a pause. A pause takes
effect before the next cycle, and one that was asked for while the run state changed to running keeps
the first cycle from being executed.

| at the start | what the run does |
| --- | --- |
| a run is going on | nothing |
| the run state is terminal | nothing |
| the interval between cycles has no duration | a violation after the change to running |
| the moment of the next cycle is too late | a violation after the first cycle that goes on |
| otherwise | cycles, then ready again unless the machine stopped |

How long a run waits between cycles is not part of what it computes. A run takes a limit of cycles;
one that reaches it is unfinished.
-/

import DecimalMachine.Control.Controller
import DecimalMachine.Control.Listener

namespace DecimalMachine
namespace Controller

variable {ι σ : Type}

/-- How a run ended, if it did. -/
inductive RunEnding where
  | returned (state : RunState)
  | violated (violation : Violation)
  /-- The limit of cycles was reached while the run was going on. -/
  | unfinished
  deriving DecidableEq, Repr

/-- What a run leaves behind. -/
structure Run (ι σ : Type) where
  controller : Controller ι
  listener : σ
  ending : RunEnding

/-- Hands the journal of a turn to a listener, which may end the run that is going on. -/
def announce (l : Listener σ) (s : σ) (turn : Turn (Controller ι) α) : Controller ι × σ :=
  let (running, s) := l.deliver turn.next.running s turn.journal
  ({ turn.next with running := running }, s)

/-- The beginning of a run: the change to running. -/
def start (c : Controller ι) : Turn (Controller ι) Unit :=
  let entered := { c with running := true }.enter .running
  { entered with
    journal :=
      .record ⟨.info, "Running at " ++ Decimal.text c.rate ++ " cycles/s"⟩ :: entered.journal }

/-- The end of a run: ready again, unless the machine stopped. -/
def finish (c : Controller ι) : Turn (Controller ι) Unit :=
  if c.runState = .running then
    let entered := { c with running := false }.enter .ready
    { entered with
      journal :=
        .record ⟨.debug, "Paused after " ++ toString c.cycles ++ " cycles"⟩ :: entered.journal }
  else ⟨{ c with running := false }, [], ()⟩

/-- The end of a run, and what it returns. -/
def conclude (l : Listener σ) (c : Controller ι) (s : σ) : Run ι σ :=
  let (c, s) := announce l s c.finish
  ⟨c, s, .returned c.runState⟩

/-- Cycle after cycle while the run is going on. -/
def runFrom [InputSource ι] (l : Listener σ) (limit : Nat) (c : Controller ι) (s : σ) : Run ι σ :=
  if c.running then
    match limit with
    | 0 => ⟨c, s, .unfinished⟩
    | limit + 1 =>
      let turn := c.cycle
      let (c, s) := announce l s turn
      match turn.result with
      | .error violation => ⟨c, s, .violated violation⟩
      | .ok false => conclude l c s
      | .ok true =>
        if Rate.hasDeadline c.rate then runFrom l limit c s
        else ⟨c, s, .violated .deadlineTooLate⟩
  else conclude l c s

/-- A run of at most `limit` cycles. -/
def run [InputSource ι] (l : Listener σ) (limit : Nat) (c : Controller ι) (s : σ) : Run ι σ :=
  if c.running then
    let (c, s) := announce l s ⟨c, [.record ⟨.debug, "Already running"⟩], ()⟩
    ⟨c, s, .returned c.runState⟩
  else if c.runState.isTerminal then ⟨c, s, .returned c.runState⟩
  else
    let (c, s) := announce l s c.start
    if Rate.hasDuration c.rate then runFrom l limit c s
    else ⟨c, s, .violated .intervalTooLong⟩

end Controller
end DecimalMachine
