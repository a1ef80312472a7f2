/-
# Violations

Some mistakes are not conditions of the running program but of the code that drives the machine:
an access outside memory, a number that is no word, a rate that leaves no representable time
between cycles. They end the call they occur in, which leaves behind the state that was reached.
-/

import DecimalMachine.Word

namespace DecimalMachine

/-- What a caller did that the machine does not allow. -/
inductive Violation where
  /-- A read from an address without a cell. -/
  | readOutside (address : Nat)
  /-- A write to an address without a cell. -/
  | writeOutside (address : Nat)
  /-- A write of a number that is no word. -/
  | writeOversized (value : Int) (address : Nat)
  /-- A memory image was asked of a program with an entry at an address without a cell. -/
  | imageOutside (address : Nat)
  /-- The time between two cycles has no representation. -/
  | intervalTooLong
  /-- The moment of the next cycle has no representation. -/
  | deadlineTooLate
  deriving DecidableEq, Repr

namespace Violation

/-- The violation as it is written in messages. -/
def message : Violation → String
  | readOutside address => "Memory read of " ++ toString address ++ " out of range"
  | writeOutside address => "Memory write of " ++ toString address ++ " out of range"
  | writeOversized value address =>
    "Memory write of " ++ toString value ++ " to " ++ toString address ++ " out of word range"
  | imageOutside address =>
    "index out of bounds: the len is " ++ toString memorySize ++ " but the index is "
      ++ toString address
  | intervalTooLong =>
    "cannot convert float seconds to Duration: value is either too big or NaN"
  | deadlineTooLate => "overflow when adding duration to instant"

end Violation

end DecimalMachine
