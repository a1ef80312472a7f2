/-
# Why a machine stops

A machine halts at a `HALT` or when control leaves the program, and it stops with a fault when an
instruction cannot be carried out. It stays stopped until it is reset.
-/

import DecimalMachine.Opcode
import DecimalMachine.Text.Numeral

namespace DecimalMachine

/-- Why a machine halted. -/
inductive HaltReason where
  /-- A `HALT` was executed. -/
  | halt
  /-- Control passed the last loaded address without a `HALT`. -/
  | ranOffEnd
  deriving DecidableEq, Repr

/-- Why an instruction could not be carried out. Addresses are those of the instruction. -/
inductive Fault where
  /-- The result of an arithmetic instruction, or the number read by `IN`, is no word. -/
  | overflow (op : Opcode) (address : Nat) (value : Int)
  /-- A word that stands for no instruction was fetched. -/
  | unknownOpcode (address : Nat) (word : Int)
  /-- `IN` found no input. -/
  | inputCancelled (address : Nat)
  deriving DecidableEq, Repr

namespace Fault

/-- The fault as it is written in messages. -/
def message : Fault → String
  | overflow op address value =>
    op.name ++ " at address " ++ Text.addressText address ++ ": value " ++ toString value
      ++ " outside " ++ toString wordMin ++ "..=" ++ toString wordMax
  | unknownOpcode address word =>
    "unknown opcode in word " ++ toString word ++ " at address " ++ Text.addressText address
  | inputCancelled address => "input cancelled at address " ++ Text.addressText address

end Fault

/-- How a machine stopped. -/
inductive Stop where
  | halted (reason : HaltReason)
  | errored (fault : Fault)
  deriving DecidableEq, Repr

end DecimalMachine
