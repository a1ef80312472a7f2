/-
# Controllers

A controller drives a machine: it loads and resets it, counts its cycles, knows what state it is in,
and refuses all of this while a run is going on.

A cycle is a step that fetches an instruction. A stopped machine executes nothing, and a machine
whose control has left the program halts without a fetch.
-/

import DecimalMachine.Machine.Step
import DecimalMachine.Rate

namespace DecimalMachine

/-- The state in which a machine stops. -/
def RunState.ofStop : Option Stop → RunState
  | some (.errored _) => errored
  | _ => halted

/-- A machine, and what decides when it takes a step. -/
structure Controller (ι : Type) where
  machine : Machine ι
  runState : RunState
  /-- Cycles since the machine was loaded or reset. -/
  cycles : Nat
  /-- Cycles per second. -/
  rate : Float
  /-- Whether a run is going on. -/
  running : Bool

/-- Why a controller did not do what it was asked for. -/
inductive ControlError where
  | busy
  | invalidRate (rate : Float)
  | violated (violation : Violation)

/-- The error as it is written in messages. -/
def ControlError.message : ControlError → String
  | busy => "machine is running"
  | invalidRate rate => "invalid rate of " ++ Decimal.text rate ++ " cycles per second"
  | violated violation => violation.message

namespace Controller

variable {ι : Type}

/-- A controller at the standard rate. -/
def new (machine : Machine ι) : Controller ι := ⟨machine, .ready, 0, Rate.standard, false⟩

/-- Changes the rate, if it is an accepted one. -/
def setRate (c : Controller ι) (rate : Float) : Except ControlError (Controller ι) :=
  if Rate.isAccepted rate then .ok { c with rate := rate } else .error (.invalidRate rate)

/-- Asks the run that is going on to end before its next cycle. -/
def pause (c : Controller ι) : Controller ι := { c with running := false }

/-- The log record and the event of a change of the run state. -/
def enterJournal (before after : RunState) : Journal :=
  [.record ⟨.debug, "Run state: " ++ before.name ++ " -> " ++ after.name⟩,
    .event (.runStateChanged after)]

/-- Changes the run state. -/
def enter (c : Controller ι) (state : RunState) : Turn (Controller ι) Unit :=
  ⟨{ c with runState := state }, enterJournal c.runState state, ()⟩

/-- The controller of a machine that was just loaded or reset. -/
def restart (c : Controller ι) (machine : Machine ι) : Turn (Controller ι) Unit :=
  { c with machine := machine, cycles := 0 }.enter .ready

/-- Replaces whatever was loaded. If the program does not fit, the machine is left as it then is and
the controller does not notice. -/
def load (c : Controller ι) (p : Program) : Turn (Controller ι) (Except ControlError Unit) :=
  if c.running then ⟨c, [], .error .busy⟩
  else
    let loading := c.machine.load p
    match loading.result with
    | .error violation =>
      ⟨{ c with machine := loading.next }, loading.journal, .error (.violated violation)⟩
    | .ok _ =>
      let restart := c.restart loading.next
      ⟨restart.next, loading.journal ++ restart.journal, .ok ()⟩

/-- Clears the machine and the count of cycles, and drops the program. -/
def reset (c : Controller ι) : Turn (Controller ι) (Except ControlError Unit) :=
  if c.running then ⟨c, [], .error .busy⟩
  else
    let clearing := c.machine.reset
    let restart := c.restart clearing.next
    ⟨restart.next, clearing.journal ++ restart.journal, .ok ()⟩

/-- Counts a cycle. -/
def count (c : Controller ι) : Turn (Controller ι) Unit :=
  ⟨{ c with cycles := c.cycles + 1 }, [.event (.cycleAdvanced (c.cycles + 1))], ()⟩

/-- One step of the machine, counted if it fetches, with the change of the run state if it stops the
machine. The result tells whether the machine goes on. -/
def cycle [InputSource ι] (c : Controller ι) : Turn (Controller ι) (Except Violation Bool) :=
  if c.machine.isStopped then ⟨c, [], .ok false⟩
  else
    let step := c.machine.step
    let after := { c with machine := step.next }
    match step.result with
    | .error violation => ⟨after, step.journal, .error violation⟩
    | .ok goesOn =>
      let counted := if c.machine.pastEnd then ⟨after, [], ()⟩ else after.count
      if goesOn then ⟨counted.next, step.journal ++ counted.journal, .ok true⟩
      else
        let stopped := counted.next.enter (.ofStop counted.next.machine.stop)
        ⟨stopped.next, step.journal ++ counted.journal ++ stopped.journal, .ok false⟩

/-- One cycle on request. -/
def singleStep [InputSource ι] (c : Controller ι) :
    Turn (Controller ι) (Except ControlError Bool) :=
  if c.running then ⟨c, [], .error .busy⟩
  else
    let turn := c.cycle
    ⟨turn.next, turn.journal, turn.result.mapError .violated⟩

/-- A number of single steps, each on its own whatever the ones before it came to. -/
def singleSteps [InputSource ι] :
    Nat → Controller ι → Turn (Controller ι) (List (Except ControlError Bool))
  | 0, c => ⟨c, [], []⟩
  | count + 1, c =>
    let first := c.singleStep
    let rest := singleSteps count first.next
    ⟨rest.next, first.journal ++ rest.journal, first.result :: rest.result⟩

end Controller
end DecimalMachine
