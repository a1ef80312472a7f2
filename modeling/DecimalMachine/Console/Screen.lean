/-
# What the console shows

Prompts and output words go to the standard output. Warnings and errors go to the standard error, or
every event in its full form if the machine is traced. Log records are not shown.
-/

import DecimalMachine.Control.Listener

namespace DecimalMachine

/-- The texts of the standard output and the standard error so far. -/
structure Screen where
  out : String
  err : String
  deriving DecidableEq, Repr

namespace Screen

/-- A screen on which nothing was written. -/
def blank : Screen := ⟨"", ""⟩

/-- The text that asks for a line. -/
def promptText : String := "? "

/-- The screen after text was written to its standard output. -/
def writeOut (s : Screen) (text : String) : Screen := { s with out := s.out ++ text }

/-- Writes a line to the standard error. -/
def writeErr (s : Screen) (line : String) : Screen := { s with err := s.err ++ line ++ "\n" }

/-- The line on the standard error for an event, if there is one. -/
def errorLine? (trace : Bool) (e : Event) : Option String :=
  if trace then some e.fullText
  else
    match e with
    | .notice .warning message => some ("warning: " ++ message)
    | .notice .error message => some ("error: " ++ message)
    | _ => none

/-- The screen after an event. Words that are put out are always shown, other events only if `trace` is set.
-/
def displayEvent (trace : Bool) (s : Screen) (e : Event) : Screen :=
  let s := (errorLine? trace e).elim s s.writeErr
  match e with
  | .output word => s.writeOut (toString word ++ "\n")
  | _ => s

/-- The screen after an emission. Only events are shown here. -/
def display (trace : Bool) (s : Screen) : Emission → Screen
  | .event e => s.displayEvent trace e
  | .record _ => s
  | .prompt => s.writeOut promptText

/-- A screen as a listener, which never asks for a pause. -/
def listener (trace : Bool) : Listener Screen := .silent (Screen.display trace)

/-- Displays a whole journal. -/
def displayAll (trace : Bool) (s : Screen) (journal : Journal) : Screen :=
  journal.foldl (Screen.display trace) s

end Screen
end DecimalMachine
