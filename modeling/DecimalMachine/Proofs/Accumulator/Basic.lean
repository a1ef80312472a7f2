/-
# The accumulator machine

The machine as its programmer sees it: a counter, an accumulator, 100 cells, the numbers that wait
to be read and the words that were put out. It has no bus, no instruction register and no flags; a
jump looks at the accumulator itself. With `w` the word at the counter, `k = |w| mod 100` and the
counter already moved on:

| word | effect |
| --- | --- |
| `901` | `AC ←` the number in front; overflow if it is no word, cancelled if there is none |
| `902` | puts out `AC` |
| digit 0 | halts |
| digit 1, 2 | `AC ← AC ± M[k]`; overflow if the result is no word |
| digit 3 | `M[k] ← AC` |
| digit 4 | nothing |
| digit 5 | `AC ← M[k]` |
| digit 6, 7, 8 | `PC ← k`, always, if `AC = 0`, if `AC ≥ 0` |
| digit 9 | unknown opcode |

The digit is `|w| / 100 mod 10`. A counter that has reached the extent of the program halts the
machine, before an instruction or after one that neither halted nor failed.
-/

import DecimalMachine.Machine.Stop
import DecimalMachine.Program

namespace DecimalMachine
namespace Accumulator

/-- The cell that a number names. -/
def cellAt (k : Nat) : Fin memorySize := ⟨k % memorySize, Nat.mod_lt k (Nat.succ_pos 99)⟩

/-- A state of the reference machine: its registers, cells, input, outputs and stop. -/
structure Config where
  pc : Int
  ac : Int
  cells : Fin memorySize → Int
  inputs : List Int
  outputs : List Int
  stop : Option Stop

namespace Config

variable (c : Config)

/-- The word in a cell. -/
def cell (k : Nat) : Int := c.cells (cellAt k)

/-- A word is put into a cell. -/
def setCell (k : Nat) (value : Int) : Config :=
  { c with cells := fun a => if a = cellAt k then value else c.cells a }

/-- Control goes on elsewhere. -/
def jump (k : Nat) : Config := { c with pc := k }

/-- The machine halts. -/
def halt (reason : HaltReason) : Config := { c with stop := some (.halted reason) }

/-- The machine fails. -/
def fail (fault : Fault) : Config := { c with stop := some (.errored fault) }

/-- Sets the accumulator; a number that is no word is an overflow of the instruction at `address`.
-/
def accumulate (op : Opcode) (address : Nat) (value : Int) : Config :=
  if InWordRange value then { c with ac := value } else c.fail (.overflow op address value)

/-- Reads the number in front. -/
def receive (address : Nat) : Config :=
  match c.inputs with
  | [] => c.fail (.inputCancelled address)
  | value :: rest => { c with inputs := rest }.accumulate .input address value

/-- Carries out a word that was fetched from `address`. -/
def perform (address : Nat) (word : Int) : Config :=
  if word = 901 then c.receive address
  else if word = 902 then { c with outputs := c.outputs ++ [c.ac] }
  else
    let k := word.natAbs % 100
    match word.natAbs / 100 % 10 with
    | 0 => c.halt .halt
    | 1 => c.accumulate .add address (c.ac + c.cell k)
    | 2 => c.accumulate .sub address (c.ac - c.cell k)
    | 3 => c.setCell k c.ac
    | 4 => c
    | 5 => { c with ac := c.cell k }
    | 6 => c.jump k
    | 7 => if c.ac = 0 then c.jump k else c
    | 8 => if 0 ≤ c.ac then c.jump k else c
    | _ => c.fail (.unknownOpcode address word)

/-- One step on a program of the given extent. -/
def step (extent : Nat) : Config :=
  if c.stop.isSome then c
  else if (extent : Int) ≤ c.pc then c.halt .ranOffEnd
  else
    let address := c.pc.toNat
    let next := { c with pc := c.pc + 1 }.perform address (c.cell address)
    if next.stop = none ∧ (extent : Int) ≤ next.pc then next.halt .ranOffEnd else next

/-- A number of steps. -/
def steps (extent : Nat) : Nat → Config → Config
  | 0, c => c
  | count + 1, c => steps extent count (c.step extent)

end Config

/-- The start of a program: every cell holds the word of the last entry at its address, or zero. -/
def start (p : Program) (inputs : List Int) : Config where
  pc := 0
  ac := 0
  cells a := (p.entryAt? a).elim 0 Entry.word
  inputs := inputs
  outputs := []
  stop := none

end Accumulator
end DecimalMachine
