/-
# Jobs

A job is a program that a command runs on the console: at a rate, with or without a trace, and with or
without a last line that says how the run ended. A job that cannot be started because of its rate shows
nothing.
-/

import DecimalMachine.Console.Input
import DecimalMachine.Console.Screen
import DecimalMachine.Control.Run

namespace DecimalMachine

/-- A program that a tool executes, and how it is shown. -/
structure Job where
  program : Program
  rate : Float
  trace : Bool
  /-- Whether the state and the number of cycles are shown after the run. -/
  summary : Bool

/-- What a command leaves on the console: its exit code and what it wrote. -/
structure Shown where
  exit : Nat
  screen : Screen
  deriving DecidableEq, Repr

namespace Job

/-- The exit code of a job that did what it was asked for. -/
def success : Nat := 0

/-- The exit code of a job that did not. -/
def failure : Nat := 1

/-- The exit code after a violation. -/
def abort : Nat := 101

/-- A controller at the rate of the job. -/
def controller (job : Job) (console : Console) : Except ControlError (Controller Console) :=
  (Controller.new (.new console)).setRate job.rate

/-- The exit code after a run. -/
def exitCode : RunState → Nat
  | .errored => failure
  | _ => success

/-- The last line of a job. -/
def summaryLine (state : RunState) (cycles : Nat) : String :=
  state.name ++ " after " ++ toString cycles ++ " cycles"

/-- What a run that returned shows. -/
def shownReturn (job : Job) (screen : Screen) (state : RunState) (cycles : Nat) : Shown :=
  ⟨exitCode state, if job.summary then screen.writeErr (summaryLine state cycles) else screen⟩

/-- What a job shows that ended in a violation. -/
def shownViolation (screen : Screen) (violation : Violation) : Shown :=
  ⟨abort, screen.writeErr violation.message⟩

/-- What a run shows. A run that is unfinished within its limit of cycles shows what it wrote so far,
and no exit code exists for it. -/
def shownRun (job : Job) (run : Controller.Run Console Screen) : Option Shown :=
  match run.ending with
  | .returned state => some (job.shownReturn run.listener state run.controller.cycles)
  | .violated violation => some (shownViolation run.listener violation)
  | .unfinished => none

/-- Loads the program and runs it for at most `limit` cycles. -/
def run (job : Job) (limit : Nat) (console : Console) : Option Shown :=
  match job.controller console with
  | .error _ => some ⟨failure, .blank⟩
  | .ok controller =>
    let loading := controller.load job.program
    let screen := Screen.blank.displayAll job.trace loading.journal
    match loading.result with
    | .error (.violated violation) => some (shownViolation screen violation)
    | .error _ => some ⟨failure, screen⟩
    | .ok _ => job.shownRun (loading.next.run (Screen.listener job.trace) limit screen)

end Job
end DecimalMachine
