/-
# Programs

A program is a table of words with the source lines they came from, in source order. Several
entries may share an address; the last of them counts.

The table has these views: `Program.extent` (one past the highest occupied address),
`Program.entryAt?` (the entry that counts at an address) and `Program.image?` (the memory that the
entries write).
-/

import DecimalMachine.Instruction
import DecimalMachine.Memory

namespace DecimalMachine

/-- One word of a program, and where it came from. Lines count from 1. -/
structure Entry where
  address : Nat
  word : Int
  line : Nat
  mnemonic : String
  operand : Int
  deriving DecidableEq, Repr, Inhabited

namespace Entry

/-- The mnemonic of a word that is no instruction. -/
def dataMnemonic : String := "DAT"

/-- An entry for an instruction. -/
def ofInstruction (address : Nat) (i : Instruction) (line : Nat) : Entry where
  address := address
  word := i.encode
  line := line
  mnemonic := i.opcode.name
  operand := i.operand

/-- An entry for a plain word. -/
def ofData (address : Nat) (word : Int) (line : Nat) : Entry where
  address := address
  word := word
  line := line
  mnemonic := dataMnemonic
  operand := word

/-- Whether an entry was written as a plain word. -/
def isData (e : Entry) : Bool := e.mnemonic == dataMnemonic

/-- The violation that writing the entry into memory would be, if any. -/
def violation? (e : Entry) : Option Violation := Memory.writeViolation? e.address e.word

/-- An entry that can be written into memory. -/
def Loadable (e : Entry) : Prop := e.address < memorySize ∧ InWordRange e.word

instance (e : Entry) : Decidable e.Loadable := inferInstanceAs (Decidable (_ ∧ _))

/-- Writing an entry is no violation exactly if it can be written into memory. -/
theorem violation?_eq_none_iff {e : Entry} : e.violation? = none ↔ e.Loadable :=
  Memory.writeViolation?_eq_none_iff

end Entry

/-- A table of entries, in source order. -/
structure Program where
  entries : List Entry
  deriving DecidableEq, Repr

namespace Program

/-- The program without entries. -/
def empty : Program := ⟨[]⟩

instance : Inhabited Program := ⟨empty⟩

/-- Plain words from address 0 on, one source line each. -/
def ofWords (words : List Int) : Program :=
  ⟨words.zipIdx.map fun (word, address) => Entry.ofData address word (address + 1)⟩

/-- Number of entries. -/
def size (p : Program) : Nat := p.entries.length

/-- Whether there are no entries. -/
def isEmpty (p : Program) : Bool := p.entries.isEmpty

/-- One past the highest occupied address. -/
def extent (p : Program) : Nat := p.entries.foldr (fun e n => max (e.address + 1) n) 0

/-- The last entry at an address. -/
def entryAt? (p : Program) (address : Nat) : Option Entry :=
  p.entries.reverse.find? fun e => e.address == address

/-- The source line of the last entry at an address. -/
def lineAt? (p : Program) (address : Nat) : Option Nat := (p.entryAt? address).map Entry.line

/-- What entries leave in memory when they are written in order. -/
def writeAll (m : Memory) (entries : List Entry) : Memory :=
  entries.foldl (fun m e => m.set e.address e.word) m

/-- The memory that the program describes; every entry needs a cell. -/
def image? (p : Program) : Except Violation Memory :=
  match p.entries.find? fun e => memorySize ≤ e.address with
  | some e => .error (.imageOutside e.address)
  | none => .ok (writeAll .zero p.entries)

/-- A program of which every entry can be written into memory. -/
def Loadable (p : Program) : Prop := ∀ e ∈ p.entries, e.Loadable

instance (p : Program) : Decidable p.Loadable := inferInstanceAs (Decidable (∀ e ∈ p.entries, _))

/-- Every entry lies below the extent. -/
theorem address_lt_extent {p : Program} {e : Entry} (h : e ∈ p.entries) : e.address < p.extent := by
  obtain ⟨entries⟩ := p
  unfold extent
  dsimp only at h ⊢
  induction entries with
  | nil => cases h
  | cons d rest ih =>
    rw [List.foldr_cons]
    rcases List.mem_cons.1 h with rfl | h
    · omega
    · have := ih h; omega

/-- The extent is no larger than what holds every entry. -/
theorem extent_le {p : Program} {n : Nat} (h : ∀ e ∈ p.entries, e.address < n) : p.extent ≤ n := by
  obtain ⟨entries⟩ := p
  unfold extent
  dsimp only at h ⊢
  induction entries with
  | nil => exact Nat.zero_le n
  | cons d rest ih =>
    rw [List.foldr_cons]
    have := h d List.mem_cons_self
    have := ih fun e he => h e (List.mem_cons_of_mem d he)
    omega

/-- A program that fits ends within memory. -/
theorem Loadable.extent_le {p : Program} (h : p.Loadable) : p.extent ≤ memorySize :=
  Program.extent_le fun e he => (h e he).1

end Program
end DecimalMachine
