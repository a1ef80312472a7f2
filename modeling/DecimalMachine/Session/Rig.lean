/-
# Rigs

A session works on a rig: a bare machine, or a machine with a controller around it. What both can do
is one operation here.
-/

import DecimalMachine.Control.Run
import DecimalMachine.Machine.Run
import DecimalMachine.Session.Feed

namespace DecimalMachine

/-- A machine, alone or in a controller. -/
inductive Rig (ι : Type) where
  | bare (machine : Machine ι)
  | controlled (controller : Controller ι)

namespace Rig

variable {ι : Type}

/-- The machine of a rig. -/
def machine : Rig ι → Machine ι
  | bare machine => machine
  | controlled controller => controller.machine

/-- Changes the machine from outside. -/
def withMachine (r : Rig ι) (f : Machine ι → Machine ι) : Rig ι :=
  match r with
  | bare machine => bare (f machine)
  | controlled controller => controlled { controller with machine := f controller.machine }

/-- Changes the input of the machine. -/
def withFeed (r : Rig Feed) (f : Feed → Feed) : Rig Feed :=
  r.withMachine fun machine => machine.setInput (f machine.input)

/-- The input of the machine. -/
def feed (r : Rig Feed) : Feed := r.machine.input

/-- Loads a program. -/
def load (r : Rig ι) (p : Program) : Turn (Rig ι) (Except ControlError Unit) :=
  match r with
  | bare machine =>
    let turn := machine.load p
    ⟨bare turn.next, turn.journal, turn.result.mapError .violated⟩
  | controlled controller =>
    let turn := controller.load p
    ⟨controlled turn.next, turn.journal, turn.result⟩

/-- Clears the machine, and makes its controller ready. -/
def reset (r : Rig ι) : Turn (Rig ι) (Except ControlError Unit) :=
  match r with
  | bare machine =>
    let turn := machine.reset
    ⟨bare turn.next, turn.journal, .ok turn.result⟩
  | controlled controller =>
    let turn := controller.reset
    ⟨controlled turn.next, turn.journal, turn.result⟩

/-- A number of steps, each on its own. -/
def steps [InputSource ι] (r : Rig ι) (count : Nat) :
    Turn (Rig ι) (List (Except ControlError Bool)) :=
  match r with
  | bare machine =>
    let turn := machine.steps count
    ⟨bare turn.next, turn.journal, turn.result.map (Except.mapError .violated)⟩
  | controlled controller =>
    let turn := controller.singleSteps count
    ⟨controlled turn.next, turn.journal, turn.result⟩

end Rig
end DecimalMachine
