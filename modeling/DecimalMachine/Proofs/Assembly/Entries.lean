/-
# Entries of assembled programs

Whatever the source text is, and even if there are errors in it, every entry of the program that it
is assembled into has a cell and a word, and is either a plain word or an instruction with the word
that the instruction is written as.
-/

import DecimalMachine.Assembly.Basic
import DecimalMachine.Proofs.Instruction.Encoding

namespace DecimalMachine

/-- An entry as an assembly makes it. -/
inductive Entry.Assembled : Entry → Prop
  | data {address : Nat} {word : Int} {line : Nat} (room : address < memorySize)
      (bound : InWordRange word) : Assembled (.ofData address word line)
  | instruction {address : Nat} {i : Instruction} {line : Nat} (room : address < memorySize)
      (canonical : i.Canonical) : Assembled (.ofInstruction address i line)

/-- An instruction is not mistaken for a plain word. -/
theorem Entry.name_ne_dataMnemonic (op : Opcode) : op.name ≠ dataMnemonic := by
  cases op <;> decide

/-- What was assembled can be loaded. -/
theorem Entry.Assembled.loadable {e : Entry} (h : e.Assembled) : e.Loadable := by
  cases h with
  | data room bound => exact ⟨room, bound⟩
  | instruction room canonical => exact ⟨room, Instruction.inWordRange_encode canonical⟩

namespace Assembly

/-! ### Statements -/

/-- A statement that writes a word, an instruction with an address, or nothing. -/
def Statement.WellFormed : Statement → Prop
  | origin _ => True
  | data word => InWordRange word
  | instruction i => i.Canonical

namespace Statement

variable {s : Statement}

/-- Data that is read is a word. -/
theorem wellFormed_ofLiteral {literal : List Char} (h : ofLiteral literal = .ok s) :
    s.WellFormed := by
  unfold ofLiteral at h
  split at h
  · cases h
  · split at h
    · next bound =>
      cases h
      exact bound
    · cases h

/-- An instruction that is read is canonical. -/
theorem wellFormed_ofTokens {mnemonic : List Char} {others : List (List Char)}
    (h : ofTokens mnemonic others = .ok s) : s.WellFormed := by
  unfold ofTokens at h
  split at h
  · cases h
  · next op found =>
    cases others with
    | nil =>
      cases h
      exact Instruction.canonical_ofOperand op 0
    | cons token rest =>
      dsimp only at h
      split at h
      · cases h
      · next operand numeral =>
        cases rest with
        | nil =>
          cases h
          exact Instruction.canonical_ofOperand op operand
        | cons extra rest => cases h

/-- What is found under `some` is found. -/
theorem eq_ok_of_map_some {x : Except Cause Statement} (h : x.map some = .ok (some s)) :
    x = .ok s := by
  cases x with
  | error cause => nomatch h
  | ok t => exact congrArg Except.ok (Option.some.inj (Except.ok.inj h))

/-- What is read of a text is well formed. -/
theorem wellFormed_ofText {text : List Char} (h : ofText text = .ok (some s)) : s.WellFormed := by
  unfold ofText at h
  split at h
  · cases h
  · cases h
    trivial
  · split at h
    · cases h
    · split at h
      · split at h
        · cases h
          exact ⟨by decide, by decide⟩
        · exact wellFormed_ofLiteral (eq_ok_of_map_some h)
      · split at h
        · exact wellFormed_ofLiteral (eq_ok_of_map_some h)
        · exact wellFormed_ofTokens (eq_ok_of_map_some h)

/-- What is read of a line is well formed. -/
theorem wellFormed_ofLine {line : List Char} (h : ofLine line = .ok (some s)) : s.WellFormed :=
  wellFormed_ofText h

end Statement

/-! ### Placement -/

/-- An entry that is placed has an address in memory. -/
theorem Placement.eq_of_entry_ofEntry {entry e : Entry} (h : entry? (ofEntry entry) = some e) :
    e = entry ∧ entry.address < memorySize := by
  unfold ofEntry at h
  split at h
  · next room => exact ⟨(Option.some.inj h).symm, room⟩
  · cases h

/-- An origin makes no entry. -/
theorem Placement.entry_ofStatement_origin (address line : Nat) (target : Option Int) :
    entry? (ofStatement address ⟨line, .origin target⟩) = none := by
  cases target with
  | none => rfl
  | some target =>
    unfold ofStatement
    dsimp only
    split <;> rfl

/-- The entry of a well-formed statement is an assembled one. -/
theorem Placement.assembled_ofStatement {address : Nat} {s : Located Statement}
    (h : s.value.WellFormed) {e : Entry} (he : entry? (ofStatement address s) = some e) :
    e.Assembled := by
  obtain ⟨line, value⟩ := s
  cases value with
  | origin target =>
    rw [entry_ofStatement_origin] at he
    cases he
  | data word =>
    obtain ⟨rfl, room⟩ := eq_of_entry_ofEntry he
    exact .data room h
  | instruction i =>
    obtain ⟨rfl, room⟩ := eq_of_entry_ofEntry he
    exact .instruction room h

/-- **The entries of statements in order are assembled.** -/
theorem assembled_place {statements : List (Located Statement)}
    (h : ∀ s ∈ statements, s.value.WellFormed) (address : Nat) :
    ∀ p ∈ place address statements, ∀ e ∈ p.value.entry?, e.Assembled := by
  induction statements generalizing address with
  | nil => nofun
  | cons s rest ih =>
    obtain ⟨hs, hrest⟩ := List.forall_mem_cons.1 h
    rw [place, List.forall_mem_cons]
    exact ⟨fun e he => Placement.assembled_ofStatement hs he, ih hrest _⟩

/-- Every statement that is read is well formed. -/
theorem wellFormed_readLines (first : Nat) (lines : List (List Char)) :
    ∀ s ∈ (readLines first lines).filterMap statement?, s.value.WellFormed := by
  intro s member
  obtain ⟨r, hr, hs⟩ := List.mem_filterMap.1 member
  obtain ⟨⟨line, number⟩, -, rfl⟩ := List.mem_map.1 hr
  unfold statement? at hs
  split at hs
  · next t ht =>
    cases hs
    exact Statement.wellFormed_ofLine ht
  · cases hs

end Assembly

/-- **Every entry of an assembled program is an assembled one.** -/
theorem assembled_of_mem_assemble {source : String} {e : Entry}
    (h : e ∈ (assemble source).program.entries) : e.Assembled := by
  obtain ⟨p, hp, he⟩ := List.mem_filterMap.1 h
  exact Assembly.assembled_place (Assembly.wellFormed_readLines 1 _) 0 p hp e he

end DecimalMachine
