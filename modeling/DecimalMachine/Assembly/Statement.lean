/-
# Statements

A source line, without its comment and trimmed, is one of these; the first row that applies counts.

| line | statement |
| --- | --- |
| empty | none |
| `*` and a text | origin, with the numeral that the text is, if it is one |
| `DAT` alone | the word 0 |
| `DAT` and a text | the word that the text writes |
| a numeral | the word that it writes |
| a mnemonic | an instruction with operand 0 |
| a mnemonic and a numeral | an instruction with that operand |

`DAT` and mnemonics are recognised in any ASCII case. Blanks separate tokens, so `DAT5` is a
mnemonic and not a word.
-/

import DecimalMachine.Assembly.Error
import DecimalMachine.Instruction
import DecimalMachine.Program
import DecimalMachine.Text.Blank
import DecimalMachine.Text.Line
import DecimalMachine.Text.Numeral

namespace DecimalMachine
namespace Assembly

/-- What a line asks of the assembler. -/
inductive Statement where
  /-- Sets the load address. Without a target, or with one outside memory, it has no effect. -/
  | origin (target : Option Int)
  | data (word : Int)
  | instruction (i : Instruction)
  deriving DecidableEq, Repr

namespace Statement

/-- Number of words that a statement occupies. -/
def size : Statement → Nat
  | origin _ => 0
  | data _ | instruction _ => 1

/-- The word that a literal writes. -/
def ofLiteral (literal : List Char) : Except Cause Statement :=
  match Text.numeral? literal with
  | none => .error (.invalidLiteral (String.ofList literal))
  | some value => if InWordRange value then .ok (data value) else .error (.valueOutOfRange value)

/-- The instruction that a mnemonic and the tokens after it write. -/
def ofTokens (mnemonic : List Char) (others : List (List Char)) : Except Cause Statement :=
  match Opcode.ofMnemonic? mnemonic with
  | none => .error (.unknownMnemonic (String.ofList mnemonic))
  | some op =>
    match others with
    | [] => .ok (instruction (.ofOperand op 0))
    | token :: rest =>
      match Text.numeral? token with
      | none => .error (.invalidOperand (String.ofList token))
      | some operand =>
        match rest with
        | [] => .ok (instruction (.ofOperand op operand))
        | extra :: _ => .error (.trailingToken (String.ofList extra))

/-- Whether a token is the data directive, in any ASCII case. -/
def isDataDirective (token : List Char) : Bool :=
  token.map Char.toUpper == Entry.dataMnemonic.toList

/-- The statement of a trimmed text without a comment, or none if the text is empty. -/
def ofText (text : List Char) : Except Cause (Option Statement) :=
  match text with
  | [] => .ok none
  | '*' :: target => .ok (some (origin (Text.numeral? (Text.trim target))))
  | _ =>
    match Text.tokens text with
    | [] => .ok none
    | first :: others =>
      if isDataDirective first then
        match Text.trim (text.drop first.length) with
        | [] => .ok (some (data 0))
        | literal => (ofLiteral literal).map some
      else if (Text.numeral? text).isSome then (ofLiteral text).map some
      else (ofTokens first others).map some

/-- The statement of a source line, or none if the line is blank. -/
def ofLine (line : List Char) : Except Cause (Option Statement) :=
  ofText (Text.trim (Text.withoutComment line))

end Statement
end Assembly
end DecimalMachine
