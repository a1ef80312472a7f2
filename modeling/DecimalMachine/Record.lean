/-
# Log records

Besides its results a part of the machine writes log records: a level and one line of text.
-/

namespace DecimalMachine

/-- How important a log record is. -/
inductive Level where
  | error | warn | info | debug | trace
  deriving DecidableEq, Repr

/-- The name of a level in the log. -/
def Level.name : Level → String
  | error => "ERROR"
  | warn => "WARN"
  | info => "INFO"
  | debug => "DEBUG"
  | trace => "TRACE"

/-- A line of the log. -/
structure Record where
  level : Level
  message : String
  deriving DecidableEq, Repr

/-- The level and the message on one line. -/
def Record.text (r : Record) : String := r.level.name ++ " " ++ r.message

end DecimalMachine
