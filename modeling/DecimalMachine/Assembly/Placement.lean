/-
# Placement

Statements are placed in order, from load address 0 on. A data word or an instruction takes the
load address if there is such a cell, and the load address moves on; otherwise it finds no room.
An origin sets the load address if its target is an address, and has no effect otherwise.
-/

import DecimalMachine.Assembly.Statement
import DecimalMachine.Record

namespace DecimalMachine
namespace Assembly

/-- A thing found on a source line. Lines count from 1. -/
structure Located (α : Type) where
  line : Nat
  value : α
  deriving DecidableEq, Repr

/-- What became of a statement. -/
inductive Placement where
  /-- An origin that set the load address. -/
  | moved (target : Nat)
  /-- An origin without effect. -/
  | ignored (target : Option Int)
  /-- A word with a cell. -/
  | placed (entry : Entry)
  /-- A word that found no room. -/
  | refused
  deriving DecidableEq, Repr

namespace Placement

/-- The placement of a word, for which `entry` is the entry at the load address. -/
def ofEntry (entry : Entry) : Placement :=
  if entry.address < memorySize then placed entry else refused

/-- What becomes of a statement at a load address. -/
def ofStatement (address : Nat) (s : Located Statement) : Placement :=
  match s.value with
  | .origin (some target) =>
    if 0 ≤ target ∧ target < (memorySize : Int) then moved target.toNat else ignored (some target)
  | .origin none => ignored none
  | .data word => ofEntry (.ofData address word s.line)
  | .instruction i => ofEntry (.ofInstruction address i s.line)

/-- The load address after a statement that was met at `address`. -/
def next (address : Nat) : Placement → Nat
  | moved target => target
  | placed _ => address + 1
  | ignored _ | refused => address

/-- The entry that a statement yields. -/
def entry? : Placement → Option Entry
  | placed entry => some entry
  | _ => none

/-- The cause for which a statement yields no entry although it should. -/
def cause? : Placement → Option Cause
  | refused => some .programTooLarge
  | _ => none

/-- The log record of a placement on a line. -/
def record (line : Nat) : Placement → Record
  | moved target => ⟨.trace, "Line " ++ toString line ++ ": load address now " ++ toString target⟩
  | ignored (some target) =>
    ⟨.warn, "Line " ++ toString line ++ ": ignoring out of range load address " ++ toString target⟩
  | ignored none =>
    ⟨.warn, "Line " ++ toString line ++ ": ignoring load address that isn't a number"⟩
  | placed entry =>
    ⟨.trace, "Line " ++ toString line ++ ": " ++ Text.addressText entry.address ++ " <- "
      ++ Text.zeroPadded 3 entry.word ++ " (" ++ entry.mnemonic ++ " " ++ toString entry.operand
      ++ ")"⟩
  | refused => ⟨.debug, (Error.mk line .programTooLarge).message⟩

end Placement

/-- Places statements from a load address on. -/
def place (address : Nat) : List (Located Statement) → List (Located Placement)
  | [] => []
  | s :: rest =>
    let placement := Placement.ofStatement address s
    ⟨s.line, placement⟩ :: place (placement.next address) rest

end Assembly
end DecimalMachine
