/-
# What the parts of a step do not tell

Every part of a step may tell of registers and flags, put a word out and give a notice. Of other things few
parts tell:

| part | tells besides |
| --- | --- |
| fetch | a read, and the source line |
| `ADD`, `SUB`, `LOAD` | a read |
| `STORE` | a write |
| anything else | nothing |

So a kind of events that holds nothing of the former (`Event.IsQuiet`) is told of by the parts in the table,
if it holds what they tell, and by no other part.
-/

import DecimalMachine.Proofs.Machine.Steps

namespace DecimalMachine

/-- A kind of events without those of registers, flags, outputs and notices. -/
structure Event.IsQuiet (kind : Event → Bool) : Prop where
  register : ∀ register value, kind (.registerChanged register value) = false
  flags : ∀ flags, kind (.flagsChanged flags) = false
  output : ∀ word, kind (.output word) = false
  notice : ∀ severity message, kind (.notice severity message) = false

namespace Progress

variable {ι : Type} {p q r : Progress ι} {kind : Event → Bool}

/-- What `q` tells beyond `p` holds no event of a kind. -/
def AddsNo (kind : Event → Bool) (p q : Progress ι) : Prop :=
  ∃ added, q.journal.events = p.journal.events ++ added ∧ ∀ e ∈ added, kind e = false

/-- Nothing adds nothing. -/
theorem AddsNo.refl (kind : Event → Bool) (p : Progress ι) : AddsNo kind p p :=
  ⟨[], (List.append_nil _).symm, nofun⟩

/-- What adds no event of a kind in two parts adds none in all. -/
theorem AddsNo.trans (hpq : AddsNo kind p q) (hqr : AddsNo kind q r) : AddsNo kind p r := by
  obtain ⟨first, hfirst, quietFirst⟩ := hpq
  obtain ⟨second, hsecond, quietSecond⟩ := hqr
  refine ⟨first ++ second, ?_, List.forall_mem_append.2 ⟨quietFirst, quietSecond⟩⟩
  rw [hsecond, hfirst, List.append_assoc]

/-! ### Single effects -/

variable (p) (quiet : Event.IsQuiet kind)

/-- An event of another kind adds none of this one. -/
theorem addsNo_emit {e : Event} (silent : kind e = false) : AddsNo kind p (p.emit e) :=
  ⟨[e], events_emit p e, List.forall_mem_singleton.2 silent⟩

/-- A log record is no event. -/
theorem addsNo_log (level : Level) (message : String) : AddsNo kind p (p.log level message) :=
  ⟨[], by rw [events_log, List.append_nil], nofun⟩

/-- Neither is a request. -/
theorem addsNo_ask [InputSource ι] : AddsNo kind p p.ask :=
  ⟨[], by rw [events_ask, List.append_nil], nofun⟩

/-- A write adds its event only. -/
theorem addsNo_writeCell (unwritten : ∀ address value, kind (.memoryWritten address value) = false)
    (address : Nat) (value : Int) : AddsNo kind p (p.writeCell address value) :=
  ⟨_, events_writeCell p address value, List.forall_mem_singleton.2 (unwritten address value)⟩

include quiet

/-- A register adds its event only, which is of no kind that is asked for. -/
theorem addsNo_setRegister (register : Register) (value : Int) :
    AddsNo kind p (p.setRegister register value) :=
  ⟨_, events_setRegister p register value, List.forall_mem_singleton.2 (quiet.register register value)⟩

/-- The accumulator adds the events of a register and of the flags. -/
theorem addsNo_setAc (value : Int) : AddsNo kind p (p.setAc value) :=
  ⟨_, events_setAc p value, by simp [quiet.register, quiet.flags]⟩

/-- A read adds its event between those of two registers. -/
theorem addsNo_readCell (unread : ∀ address, kind (.memoryRead address) = false) (address : Nat) :
    AddsNo kind p (p.readCell address) :=
  ⟨_, events_readCell p address, by simp [quiet.register, unread]⟩

/-! ### The parts of a step -/

/-- A fetch adds a read, and a source line if there is one. -/
theorem addsNo_fetch (unread : ∀ address, kind (.memoryRead address) = false)
    (unlined : ∀ line, kind (.lineExecuted line) = false) (address : Nat) :
    AddsNo kind p (p.fetch address) := by
  have hread := p.addsNo_readCell quiet unread address
  have hir := hread.trans (addsNo_setRegister _ quiet .ir (p.machine.state.memory.get address))
  have hpc := hir.trans (addsNo_setRegister _ quiet .pc (address + 1))
  unfold fetch
  dsimp only
  split
  · next line _ => exact hpc.trans (addsNo_emit _ (unlined line))
  · exact hpc

/-- An announcement adds a notice. -/
theorem addsNo_announce (address : Nat) (i : Instruction) : AddsNo kind p (p.announce address i) :=
  (p.addsNo_log _ _).trans (addsNo_emit _ (quiet.notice _ _))

/-- A result adds what the accumulator adds, or nothing. -/
theorem addsNo_accept (op : Opcode) (address : Nat) (value : Int) :
    AddsNo kind p (p.accept op address value).1 := by
  unfold accept
  split
  · exact p.addsNo_setAc quiet value
  · exact .refl _ p

/-- A store adds a write. -/
theorem addsNo_store (unwritten : ∀ address value, kind (.memoryWritten address value) = false)
    (operand : Nat) : AddsNo kind p (p.store operand).1 := by
  have registers := (p.addsNo_setRegister quiet .mar operand).trans
    (addsNo_setRegister _ quiet .mbr p.machine.state.ac)
  unfold store
  dsimp only
  split
  · exact registers
  · exact registers.trans (addsNo_writeCell _ unwritten operand _)

/-- A branch adds what the counter adds, or nothing. -/
theorem addsNo_branch (operand : Nat) (taken : Prop) [Decidable taken] :
    AddsNo kind p (p.branch operand taken) := by
  unfold branch
  split
  · exact p.addsNo_setRegister quiet .pc operand
  · exact .refl _ p

/-- `INPUT` adds what a result adds, or nothing. -/
theorem addsNo_receive [InputSource ι] (address : Nat) : AddsNo kind p (p.receive address).1 := by
  unfold receive
  split
  · exact p.addsNo_ask
  · next value _ =>
    exact (p.addsNo_ask.trans (addsNo_log _ _ _)).trans (addsNo_accept _ quiet .input address value)

/-- An instruction tells of no write unless it is `STORE`. -/
theorem addsNo_execute [InputSource ι] (unread : ∀ address, kind (.memoryRead address) = false)
    (address : Nat) {i : Instruction}
    (unwritten : i.opcode = .store → ∀ address value, kind (.memoryWritten address value) = false) :
    AddsNo kind p (p.execute address i).1 := by
  unfold execute
  cases op : i.opcode with
  | halt | nop => exact .refl _ p
  | add | sub => exact (p.addsNo_readCell quiet unread i.operand).trans (addsNo_accept _ quiet _ _ _)
  | store => exact p.addsNo_store quiet (unwritten op) i.operand
  | load => exact (p.addsNo_readCell quiet unread i.operand).trans (addsNo_setAc _ quiet _)
  | branch => exact p.addsNo_branch quiet i.operand True
  | brz => exact p.addsNo_branch quiet i.operand (p.machine.state.ac = 0)
  | brp => exact p.addsNo_branch quiet i.operand (0 ≤ p.machine.state.ac)
  | input => exact p.addsNo_receive quiet address
  | output => exact (p.addsNo_log _ _).trans (addsNo_emit _ (quiet.output _))

/-- What is told of the end of a cycle is a notice at most. -/
theorem addsNo_settle (ending : Ending) :
    AddsNo kind p ⟨(p.settle ending).next, (p.settle ending).journal⟩ := by
  cases ending with
  | proceeded | violated => exact .refl _ p
  | halted reason =>
    cases reason with
    | halt => exact p.addsNo_log _ _
    | ranOffEnd => exact (p.addsNo_log _ _).trans (addsNo_emit _ (quiet.notice _ _))
  | faulted fault => exact (p.addsNo_log _ _).trans (addsNo_emit _ (quiet.notice _ _))

end Progress
end DecimalMachine
