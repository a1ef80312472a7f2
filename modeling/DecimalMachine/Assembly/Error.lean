/-
# Assembly errors

A line that yields no word where it should is reported with its number and one cause.

| cause | what is wrong |
| --- | --- |
| `unknownMnemonic` | the first token spells no opcode |
| `invalidOperand` | the second token of an instruction is no numeral |
| `invalidLiteral` | what follows `DAT` is no numeral |
| `valueOutOfRange` | a data value is no word |
| `trailingToken` | an instruction has a third token |
| `programTooLarge` | the word would lie beyond the last cell |
-/

import DecimalMachine.Word

namespace DecimalMachine
namespace Assembly

/-- What is wrong with a line, and the text or the number that it is wrong about. -/
inductive Cause where
  | unknownMnemonic (mnemonic : String)
  | invalidOperand (token : String)
  | invalidLiteral (token : String)
  | valueOutOfRange (value : Int)
  | trailingToken (token : String)
  | programTooLarge
  deriving DecidableEq, Repr

/-- The cause as it is written in messages. -/
def Cause.message : Cause → String
  | unknownMnemonic mnemonic => "unknown mnemonic '" ++ mnemonic ++ "'"
  | invalidOperand token => "invalid operand '" ++ token ++ "'"
  | invalidLiteral token => "invalid literal '" ++ token ++ "'"
  | valueOutOfRange value =>
    "value " ++ toString value ++ " outside " ++ toString wordMin ++ "..=" ++ toString wordMax
  | trailingToken token => "unexpected '" ++ token ++ "'"
  | programTooLarge => "program does not fit in memory"

/-- A cause and the line it arose on. Lines count from 1. -/
structure Error where
  line : Nat
  cause : Cause
  deriving DecidableEq, Repr

/-- The line and the cause as they are written in messages. -/
def Error.message (e : Error) : String := "line " ++ toString e.line ++ ": " ++ e.cause.message

end Assembly
end DecimalMachine
