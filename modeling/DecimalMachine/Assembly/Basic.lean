/-
# Assembling a source text

Every line is read into a statement; then the statements are placed. A line with an error takes no
address. The program holds every word that found a place, even if there are errors; the errors are
those of reading, in the order of the lines, followed by those of placement, in the order of the
lines.
-/

import DecimalMachine.Assembly.Placement

namespace DecimalMachine
namespace Assembly

/-- A line as it was read: a statement, none for a blank line, or the cause of an error. -/
abbrev Reading := Located (Except Cause (Option Statement))

/-- The lines of a text as they were read; `first` is the number of the first one. -/
def readLines (first : Nat) (lines : List (List Char)) : List Reading :=
  (lines.zipIdx first).map fun (line, number) => ⟨number, Statement.ofLine line⟩

/-- The statement of a line. -/
def statement? (r : Reading) : Option (Located Statement) :=
  match r.value with
  | .ok (some s) => some ⟨r.line, s⟩
  | _ => none

/-- The error of reading a line. -/
def readError? (r : Reading) : Option Error :=
  match r.value with
  | .error cause => some ⟨r.line, cause⟩
  | .ok _ => none

/-- The error of placing a statement. -/
def placeError? (p : Located Placement) : Option Error := p.value.cause?.map (⟨p.line, ·⟩)

end Assembly

/-- A source text once it is read and placed. -/
structure Assembly where
  readings : List Assembly.Reading
  placements : List (Assembly.Located Assembly.Placement)

namespace Assembly

/-- Reads and places the lines of a text. -/
def ofLines (lines : List (List Char)) : Assembly :=
  let readings := readLines 1 lines
  { readings := readings, placements := place 0 (readings.filterMap statement?) }

/-- The statements of the text, in the order of the lines. -/
def statements (a : Assembly) : List (Located Statement) := a.readings.filterMap statement?

/-- The words that found a place. -/
def program (a : Assembly) : Program := ⟨a.placements.filterMap fun p => p.value.entry?⟩

/-- The errors of reading the lines. -/
def readErrors (a : Assembly) : List Error := a.readings.filterMap readError?

/-- The errors of placing the statements. -/
def placeErrors (a : Assembly) : List Error := a.placements.filterMap placeError?

/-- All errors of an assembly: those of single lines, then those of words that found no cell. -/
def errors (a : Assembly) : List Error := a.readErrors ++ a.placeErrors

/-- Whether an assembly has no errors. -/
def isOk (a : Assembly) : Bool := a.errors.isEmpty

/-- The program if there are no errors, otherwise the errors. -/
def result (a : Assembly) : Except (List Error) Program :=
  if a.isOk then .ok a.program else .error a.errors

/-- The log records in the order in which they are written. -/
def log (a : Assembly) : List Record :=
  a.readErrors.map (fun e => ⟨.debug, e.message⟩)
    ++ a.placements.map (fun p => p.value.record p.line)
    ++ [⟨.debug, "Assembled " ++ toString a.program.size ++ " words with "
      ++ toString a.errors.length ++ " errors"⟩]

end Assembly

/-- Assembles a source text. -/
def assemble (source : String) : Assembly := .ofLines (Text.lines source.toList)

end DecimalMachine
