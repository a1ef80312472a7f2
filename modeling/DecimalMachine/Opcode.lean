/-
# Opcodes and their spellings

Nine opcodes are one digit in front of an operand; `IN` and `OUT` are whole words.

| opcode | code | spellings | operand used |
| --- | ---: | --- | :---: |
| `HALT` | 0 | `HALT`, `HLT`, `COB` | |
| `ADD` | 1 | `ADD` | yes |
| `SUB` | 2 | `SUB` | yes |
| `STORE` | 3 | `STORE`, `STO`, `STA` | yes |
| `NOP` | 4 | `NOP`, `NUL` | |
| `LOAD` | 5 | `LOAD`, `LDA` | yes |
| `BRANCH` | 6 | `BRANCH`, `BR`, `BRU`, `JMP` | yes |
| `BRZ` | 7 | `BRZ` | yes |
| `BRP` | 8 | `BRP` | yes |
| `IN` | 901 | `IN`, `INP` | |
| `OUT` | 902 | `OUT`, `PRN` | |
-/

namespace DecimalMachine

/-- The operations of a machine. -/
inductive Opcode where
  | halt | add | sub | store | nop | load | branch | brz | brp | input | output
  deriving DecidableEq, Repr, Inhabited

namespace Opcode

/-- Every opcode, in the order of the codes. -/
def all : List Opcode :=
  [halt, add, sub, store, nop, load, branch, brz, brp, input, output]

/-- The opcode digit, or the whole word of `IN` and `OUT`. -/
def code : Opcode → Nat
  | halt => 0
  | add => 1
  | sub => 2
  | store => 3
  | nop => 4
  | load => 5
  | branch => 6
  | brz => 7
  | brp => 8
  | input => 901
  | output => 902

/-- The name that listings and messages use. -/
def name : Opcode → String
  | halt => "HALT"
  | add => "ADD"
  | sub => "SUB"
  | store => "STORE"
  | nop => "NOP"
  | load => "LOAD"
  | branch => "BRANCH"
  | brz => "BRZ"
  | brp => "BRP"
  | input => "IN"
  | output => "OUT"

/-- The accepted spellings besides the name. -/
def aliases : Opcode → List String
  | halt => ["HLT", "COB"]
  | store => ["STO", "STA"]
  | nop => ["NUL"]
  | load => ["LDA"]
  | branch => ["BR", "BRU", "JMP"]
  | input => ["INP"]
  | output => ["PRN"]
  | _ => []

/-- Every accepted spelling, the name first. -/
def mnemonics (op : Opcode) : List String := op.name :: op.aliases

/-- The opcode that a token spells; the case of ASCII letters does not matter. -/
def ofMnemonic? (token : List Char) : Option Opcode :=
  let spelling := String.ofList (token.map Char.toUpper)
  all.find? fun op => op.mnemonics.contains spelling

/-- Whether the instruction is a whole word, without an operand. -/
def isFullWord : Opcode → Bool
  | input | output => true
  | _ => false

/-- Whether the operand means anything when the instruction is executed. -/
def usesOperand : Opcode → Bool
  | add | sub | store | load | branch | brz | brp => true
  | _ => false

/-- The opcode of an opcode digit; no opcode has the digit 9. -/
def ofDigit? : Nat → Option Opcode
  | 0 => some halt
  | 1 => some add
  | 2 => some sub
  | 3 => some store
  | 4 => some nop
  | 5 => some load
  | 6 => some branch
  | 7 => some brz
  | 8 => some brp
  | _ => none

/-- The digits of the opcodes that take an operand field are their codes. -/
theorem ofDigit?_code {op : Opcode} (h : op.isFullWord = false) : ofDigit? op.code = some op := by
  cases op <;> first | rfl | cases h

/-- A digit is the code of the opcode that it stands for, which has an operand field. -/
theorem code_of_ofDigit? {digit : Nat} {op : Opcode} (h : ofDigit? digit = some op) :
    op.code = digit ∧ op.isFullWord = false := by
  unfold ofDigit? at h
  split at h <;> cases h <;> exact ⟨rfl, rfl⟩

/-- No spelling belongs to two opcodes. -/
theorem mnemonics_nodup : (all.flatMap mnemonics).Nodup := by decide

end Opcode
end DecimalMachine
