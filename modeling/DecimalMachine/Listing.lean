/-
# Listings

The listing of a program has one row for each address below its extent. Words that were assembled
as data, or that stand for no instruction, are shown as `DAT`.

A row is filler if its word is zero and no source line put it there. `elide` shortens every run of
more than eight filler rows to its first and its last row, and `print` marks each gap between the
addresses of neighbouring rows with `...`.
-/

import DecimalMachine.Program
import DecimalMachine.Text.Numeral

namespace DecimalMachine
namespace Listing

/-- One row of a listing. -/
structure Row where
  address : Nat
  word : Int
  line : Option Nat
  interpretation : String
  deriving DecidableEq, Repr

/-- A word as data. -/
def dataText (word : Int) : String := Entry.dataMnemonic ++ " " ++ toString word

/-- What is shown for a word, given the entry at its address. -/
def interpretation (entry : Option Entry) (word : Int) : String :=
  if entry.any Entry.isData then dataText word
  else
    match Instruction.decode? word with
    | some i => i.text
    | none => dataText word

/-- The row of an address. -/
def rowAt (p : Program) (image : Memory) (address : Nat) : Row where
  address := address
  word := image.get address
  line := p.lineAt? address
  interpretation := interpretation (p.entryAt? address) (image.get address)

/-- The rows of a program, one for each address below its extent. -/
def rows (p : Program) : Except Violation (List Row) :=
  p.image?.map fun image => (List.range p.extent).map (rowAt p image)

namespace Row

/-- A row as one line of text. -/
def text (r : Row) : String :=
  Text.addressText r.address ++ ":\t" ++ Text.spacePadded 4 r.word ++ "\t" ++ r.interpretation
    ++ (match r.line with
      | some line => "\t; line " ++ toString line
      | none => "")

/-- A zero that no source line put there. -/
def isFiller (r : Row) : Bool := r.word == 0 && r.line.isNone

/-- A row is filler exactly if its word is zero and no source line is known for it. -/
theorem isFiller_iff {r : Row} : r.isFiller = true ↔ r.word = 0 ∧ r.line = none := by
  simp [isFiller]

end Row

/-- The longest run of filler that is shown in full. -/
def longestRun : Nat := 8

/-- A run of filler rows as it is shown: the first and the last row if the run is too long. -/
def shorten (run : List Row) : List Row :=
  if run.length ≤ longestRun then run else run.head?.toList ++ run.getLast?.toList

/-- Shortens the long runs in `run.reverse ++ rows`, where `run` is a run of filler. -/
def elideFrom (run : List Row) : List Row → List Row
  | [] => shorten run.reverse
  | r :: rest =>
    if r.isFiller then elideFrom (r :: run) rest
    else shorten run.reverse ++ r :: elideFrom [] rest

/-- Shortens every long run of filler rows to its two ends. -/
def elide (rows : List Row) : List Row := elideFrom [] rows

/-- The line that stands for missing addresses. -/
def ellipsis : String := "..."

/-- The lines for rows that follow a row at `address`. -/
def printAfter (address : Nat) : List Row → List String
  | [] => []
  | r :: rest =>
    if address + 1 = r.address then r.text :: printAfter r.address rest
    else ellipsis :: r.text :: printAfter r.address rest

/-- The lines for rows; a gap in the addresses is marked. -/
def print : List Row → List String
  | [] => []
  | r :: rest => r.text :: printAfter r.address rest

/-- The lines of a program's listing, with long runs of filler left out. -/
def printed (p : Program) : Except Violation (List String) :=
  (rows p).map fun rows => print (elide rows)

end Listing
end DecimalMachine
