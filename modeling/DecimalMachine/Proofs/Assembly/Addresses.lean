/-
# Where words are placed

Placing threads a load address through the statements. The cell of a word can be told without it, from the
statements in front of the word alone: it is the target of the last origin among them that has an effect, or
0, and one more for each word since (`Assembly.cellAfter`).

| statement | the cell after it |
| --- | --- |
| an origin with an effect | its target |
| an origin without effect | the same |
| a word | the next one, also beyond memory |

The load address stops one past the last cell, while the cell that is counted here goes on. So the load
address is the smaller of the two (`Assembly.addressAfter_eq`), which makes no difference to what becomes of
a statement, and an origin with an effect brings both together again.
-/

import DecimalMachine.Proofs.Assembly.Accounting
import Mathlib.Data.List.DropRight
import Mathlib.Data.List.Induction

namespace DecimalMachine
namespace Assembly

/-! ### The cell of a word -/

/-- The address that a statement sets, if it is an origin with an effect. -/
def Statement.target? : Statement → Option ℕ
  | origin (some target) => if 0 ≤ target ∧ target ≤ 99 then some target.toNat else none
  | origin none | data _ | instruction _ => none

/-- The entry that a statement yields in a cell, if it is a word. -/
def Statement.entry? (cell line : ℕ) : Statement → Option Entry
  | origin _ => none
  | data word => some (.ofData cell word line)
  | instruction i => some (.ofInstruction cell i line)

/-- Whether a statement is an origin without effect. -/
def Statement.isIdle (s : Statement) : Bool := s.size = 0 && s.target? = none

/-- The target of the last origin with an effect, or 0. -/
def baseAfter (before : List (Located Statement)) : ℕ :=
  (before.filterMap fun s => s.value.target?).getLast?.getD 0

/-- The number of words after the last origin with an effect. -/
def wordsAfter (before : List (Located Statement)) : ℕ :=
  (before.rtakeWhile fun s => s.value.target? = none).countP fun s => s.value.size = 1

/-- The cell of a word with these statements in front of it. -/
def cellAfter (before : List (Located Statement)) : ℕ := baseAfter before + wordsAfter before

/-- Statements, each with the cell that it is due. -/
def cells (statements : List (Located Statement)) : List (ℕ × Located Statement) :=
  statements.zipIdx.map fun (s, index) => (cellAfter (statements.take index), s)

/-- The load address after statements. -/
def addressAfter (address : ℕ) (statements : List (Located Statement)) : ℕ :=
  statements.foldl (fun address s => (Placement.ofStatement address s).next address) address

/-! ### One statement -/

variable {address : ℕ} {s : Located Statement}

/-- What becomes of a statement that is met at an address. -/
inductive Met (address : ℕ) (s : Located Statement) : Placement → Prop
  | moved {target : ℕ} (size : s.value.size = 0) (entry : s.value.entry? address s.line = none)
      (sets : s.value.target? = some target) (room : target ≤ 99) : Met address s (.moved target)
  | ignored {target : Option Int} (size : s.value.size = 0)
      (entry : s.value.entry? address s.line = none) (idle : s.value.target? = none) :
      Met address s (.ignored target)
  | placed {e : Entry} (size : s.value.size = 1) (entry : s.value.entry? address s.line = some e)
      (idle : s.value.target? = none) (room : address ≤ 99) : Met address s (.placed e)
  | refused (size : s.value.size = 1) (idle : s.value.target? = none) (full : 99 < address) :
      Met address s .refused

/-- A statement of one word meets the entry that it makes. -/
theorem Met.ofEntry {e : Entry} (size : s.value.size = 1)
    (entry : s.value.entry? address s.line = some e) (idle : s.value.target? = none)
    (cell : e.address = address) : Met address s (.ofEntry e) := by
  unfold Placement.ofEntry
  split
  · next room => exact .placed size entry idle (cell ▸ Nat.le_of_lt_succ room)
  · next full => exact .refused size idle (cell ▸ Nat.lt_of_succ_le (Nat.not_lt.1 full))

/-- **Placing a statement meets what it asks for**, with one case for each kind. -/
theorem met_ofStatement (address : ℕ) (s : Located Statement) :
    Met address s (.ofStatement address s) := by
  obtain ⟨line, value⟩ := s
  cases value with
  | data word => exact .ofEntry rfl rfl rfl rfl
  | instruction i => exact .ofEntry rfl rfl rfl rfl
  | origin target =>
    cases target with
    | none => exact .ignored rfl rfl rfl
    | some target =>
      by_cases inside : 0 ≤ target ∧ target ≤ 99
      · have room : 0 ≤ target ∧ target < (memorySize : Int) :=
          ⟨inside.1, Int.lt_add_one_of_le inside.2⟩
        have low : target.toNat ≤ 99 := Int.toNat_le.2 inside.2
        have moved : Placement.ofStatement address ⟨line, .origin (some target)⟩ =
            .moved target.toNat := if_pos room
        rw [moved]
        exact .moved rfl rfl (if_pos inside) low
      · have outside : ¬ (0 ≤ target ∧ target < (memorySize : Int)) :=
          fun room => inside ⟨room.1, Int.le_of_lt_add_one room.2⟩
        have ignored : Placement.ofStatement address ⟨line, .origin (some target)⟩ =
            .ignored (some target) := if_neg outside
        rw [ignored]
        exact .ignored rfl rfl (if_neg inside)

/-- The entry that comes of a statement. -/
theorem Met.entry? {p : Placement} (h : Met address s p) :
    p.entry? = if address ≤ 99 then s.value.entry? address s.line else none := by
  cases h with
  | moved _ entry | ignored _ entry =>
    rw [entry]
    exact (ite_self none).symm
  | placed _ entry _ room =>
    rw [if_pos room, entry]
    rfl
  | refused _ _ full => exact (if_neg (Nat.not_le.2 full)).symm

/-- The error that comes of a statement. -/
theorem Met.cause? {p : Placement} (h : Met address s p) :
    p.cause? = if s.value.size = 1 ∧ 99 < address then some .programTooLarge else none := by
  cases h with
  | moved size | ignored size => exact (if_neg (by omega)).symm
  | placed _ _ _ room => exact (if_neg (by omega)).symm
  | refused size _ full => exact (if_pos ⟨size, full⟩).symm

/-- The load address stops one past the last cell. -/
theorem Met.next {p : Placement} (h : Met address s p) (bound : address ≤ memorySize) :
    p.next address = match s.value.target? with
      | some target => min target memorySize
      | none => min (address + s.value.size) memorySize := by
  cases h with
  | moved _ _ sets room =>
    rw [sets]
    exact (Nat.min_eq_left (Nat.le_succ_of_le room)).symm
  | ignored size _ idle =>
    rw [idle, size]
    exact (Nat.min_eq_left bound).symm
  | placed size _ idle room =>
    rw [idle, size]
    exact (Nat.min_eq_left (Nat.succ_le_succ room)).symm
  | refused size idle full =>
    rw [idle, size]
    exact (Nat.le_antisymm bound full).trans (Nat.min_eq_right (Nat.le_succ_of_le full)).symm

/-- It makes no difference how far beyond memory a statement is met. -/
theorem ofStatement_min (address : ℕ) (s : Located Statement) :
    Placement.ofStatement (min address memorySize) s = .ofStatement address s := by
  rcases Nat.le_total address memorySize with within | beyond
  · rw [Nat.min_eq_left within]
  rw [Nat.min_eq_right beyond]
  have refused {e : Entry} (h : memorySize ≤ e.address) : Placement.ofEntry e = .refused :=
    if_neg (Nat.not_lt.2 h)
  obtain ⟨line, value⟩ := s
  cases value with
  | origin target => cases target <;> rfl
  | data word => exact (refused le_rfl).trans (refused beyond).symm
  | instruction i => exact (refused le_rfl).trans (refused beyond).symm

/-- The cell after a statement, by the one in front of it. -/
theorem cellAfter_concat (before : List (Located Statement)) (s : Located Statement) :
    cellAfter (before ++ [s]) = match s.value.target? with
      | some target => target
      | none => cellAfter before + s.value.size := by
  unfold cellAfter baseAfter wordsAfter
  rw [List.filterMap_append]
  cases target : s.value.target? with
  | some target =>
    rw [List.rtakeWhile_concat_neg _ _ _ (by simp [target])]
    simp [target]
  | none =>
    have one : [s].countP (fun s => s.value.size = 1) = s.value.size := by
      cases value : s.value <;> simp [value, Statement.size]
    rw [List.rtakeWhile_concat_pos _ _ _ (by simp [target]), List.countP_append, one]
    simp [target, Nat.add_assoc]

/-! ### Statements in a row -/

/-- Statements are placed in two parts, the second from where the first leaves the address. -/
theorem place_append (address : ℕ) (before after : List (Located Statement)) :
    place address (before ++ after) =
      place address before ++ place (addressAfter address before) after := by
  induction before generalizing address with
  | nil => rfl
  | cons s rest ih =>
    rw [List.cons_append, place, place, ih, List.cons_append]
    rfl

/-- **The load address is the counted cell**, as far as memory goes. -/
theorem addressAfter_eq (before : List (Located Statement)) :
    addressAfter 0 before = min (cellAfter before) memorySize := by
  induction before using List.reverseRecOn with
  | nil => rfl
  | append_singleton before s ih =>
    have bound : addressAfter 0 before ≤ memorySize := ih ▸ Nat.min_le_right _ _
    have step : addressAfter 0 (before ++ [s]) =
        (Placement.ofStatement (addressAfter 0 before) s).next (addressAfter 0 before) :=
      List.foldl_concat ..
    rw [step, (met_ofStatement _ s).next bound, cellAfter_concat, ih]
    cases s.value.target? with
    | some target => rfl
    | none =>
      dsimp only
      omega

/-- A statement more is placed behind the others. -/
theorem cells_concat (before : List (Located Statement)) (s : Located Statement) :
    cells (before ++ [s]) = cells before ++ [(cellAfter before, s)] := by
  have earlier : before.zipIdx.map (fun (t, index) => (cellAfter ((before ++ [s]).take index), t)) =
      cells before := by
    refine List.map_congr_left fun ⟨t, index⟩ member => ?_
    have inside : index < before.length := by
      obtain ⟨-, below, -⟩ := List.mem_zipIdx member
      omega
    dsimp only
    rw [List.take_append_of_le_length inside.le]
  rw [cells, List.zipIdx_append, List.map_append, earlier]
  simp

/-- **Each statement is met at its cell.** -/
theorem place_eq_map (statements : List (Located Statement)) :
    place 0 statements =
      (cells statements).map fun (cell, s) => ⟨s.line, .ofStatement cell s⟩ := by
  induction statements using List.reverseRecOn with
  | nil => rfl
  | append_singleton before s ih =>
    have last : place (addressAfter 0 before) [s] = [⟨s.line, .ofStatement (cellAfter before) s⟩] := by
      rw [place, addressAfter_eq, ofStatement_min, place]
    rw [place_append, last, ih, cells_concat, List.map_append]
    rfl

/-- **Origins without effect can be left out**, for anything that is not asked of their own lines. -/
theorem filterMap_place_idle {β : Type} {f : Located Placement → Option β}
    (quiet : ∀ line target, f ⟨line, .ignored target⟩ = none) (address : ℕ)
    (statements : List (Located Statement)) :
    (place address (statements.filter fun s => !s.value.isIdle)).filterMap f =
      (place address statements).filterMap f := by
  induction statements generalizing address with
  | nil => rfl
  | cons s rest ih =>
    cases idle : s.value.isIdle with
    | false =>
      rw [List.filter_cons_of_pos (by simp [idle]), place, place, List.filterMap_cons,
        List.filterMap_cons, ih]
    | true =>
      obtain ⟨size, still⟩ : s.value.size = 0 ∧ s.value.target? = none := by
        simpa [Statement.isIdle] using idle
      rw [List.filter_cons_of_neg (by simp [idle]), ih, place]
      have met := met_ofStatement address s
      generalize Placement.ofStatement address s = p at met
      cases met with
      | moved _ _ sets => cases still.symm.trans sets
      | placed word | refused word => cases size.symm.trans word
      | ignored => rw [List.filterMap_cons_none (quiet _ _), Placement.next]

/-! ### Assembled texts -/

/-- The statements are what could be read, in order. -/
theorem statements_ofLines (lines : List (List Char)) :
    (ofLines lines).statements = (readLines 1 lines).filterMap statement? := rfl

/-- The errors of reading are what could not. -/
theorem readErrors_ofLines (lines : List (List Char)) :
    (ofLines lines).readErrors = (readLines 1 lines).filterMap readError? := rfl

/-- The statements are placed from address 0 on. -/
theorem placements_ofLines (lines : List (List Char)) :
    (ofLines lines).placements = place 0 (ofLines lines).statements := rfl

variable {lines : List (List Char)}

/-- **The entries are the statements with a cell**, each at its closed-form address. -/
theorem entries_eq_filterMap_cells (lines : List (List Char)) :
    (ofLines lines).program.entries =
      (cells (ofLines lines).statements).filterMap fun (cell, s) =>
        if cell ≤ 99 then s.value.entry? cell s.line else none := by
  rw [program, placements_ofLines, place_eq_map, List.filterMap_map]
  exact List.filterMap_congr fun ⟨cell, s⟩ _ => Met.entry? (met_ofStatement cell s)

/-- **The errors of placing are the statements of a word without a cell.** -/
theorem placeErrors_eq_filterMap_cells (lines : List (List Char)) :
    (ofLines lines).placeErrors =
      (cells (ofLines lines).statements).filterMap fun (cell, s) =>
        if s.value.size = 1 ∧ 99 < cell then some ⟨s.line, .programTooLarge⟩ else none := by
  rw [placeErrors, placements_ofLines, place_eq_map, List.filterMap_map]
  refine List.filterMap_congr fun ⟨cell, s⟩ _ => ?_
  have error : placeError? ⟨s.line, .ofStatement cell s⟩ =
      if s.value.size = 1 ∧ 99 < cell then some ⟨s.line, .programTooLarge⟩ else none := by
    rw [placeError?, (met_ofStatement cell s).cause?]
    split <;> rfl
  exact error

/-- Of the line of a statement is told what becomes of the statement at its cell. -/
theorem told_of_cell {before after : List (Located Statement)}
    (row : (ofLines lines).statements = before ++ s :: after) :
    ∃ p, Met (cellAfter before) s p ∧ (ofLines lines).told s.line =
      (Option.toList p.entry?, (Option.toList p.cause?).map (⟨s.line, ·⟩),
        [p.record s.line].filter fun r => r.level = .warn) := by
  refine ⟨_, met_ofStatement (cellAfter before) s, ?_⟩
  have member : s ∈ (ofLines lines).statements := row ▸ List.mem_append_right _ List.mem_cons_self
  obtain ⟨r, hr, found⟩ := List.mem_filterMap.1 member
  obtain ⟨same, value⟩ := line_of_statement? found
  have read : ((ofLines lines).readings.filter fun r => r.line = s.line) = [r] := by
    rw [same]
    exact filter_line_of_nodup (nodup_line_readLines 1 lines) hr
  have placed : (⟨s.line, .ofStatement (cellAfter before) s⟩ : Located Placement) ∈
      (ofLines lines).placements := by
    rw [placements_ofLines, row, place_append, place, addressAfter_eq, ofStatement_min]
    exact List.mem_append_right _ List.mem_cons_self
  rw [told_eq read (filter_line_of_nodup nodup_line_placements placed)]
  have silent : readError? r = none := by
    rw [readError?, value]
  rw [List.filterMap_cons_none silent]
  unfold placeError?
  generalize Placement.ofStatement (cellAfter before) s = p
  cases p <;> rfl

end Assembly

open Assembly in
/-- **The places of all words are told in closed form.** Whatever the text is,

* the entries are the words that are due a cell of memory, with this cell, in the order of the statements;
* the errors are those of reading, and after them one for each word that is due a cell beyond memory;
* so the line of a word has one entry and nothing else, or one such error and nothing else, while that of
  an origin has neither;
* origins without effect can be left out. -/
theorem assemble_places (source : String) :
    (assemble source).program.entries =
      (cells (assemble source).statements).filterMap (fun (cell, s) =>
        if cell ≤ 99 then s.value.entry? cell s.line else none) ∧
    (assemble source).errors = (assemble source).readErrors ++
      (cells (assemble source).statements).filterMap (fun (cell, s) =>
        if s.value.size = 1 ∧ 99 < cell then some ⟨s.line, .programTooLarge⟩ else none) ∧
    (∀ before s after, (assemble source).statements = before ++ s :: after → s.value.size = 1 →
      ∃ e, s.value.entry? (cellAfter before) s.line = some e ∧ e.address = cellAfter before ∧
        (assemble source).told s.line =
          if cellAfter before ≤ 99 then ([e], [], []) else ([], [⟨s.line, .programTooLarge⟩], [])) ∧
    (∀ s ∈ (assemble source).statements, s.value.size = 0 →
      ((assemble source).told s.line).1 = [] ∧ ((assemble source).told s.line).2.1 = []) ∧
    (place 0 ((assemble source).statements.filter fun s => !s.value.isIdle)).filterMap
        (fun p => p.value.entry?) = (assemble source).program.entries ∧
    (place 0 ((assemble source).statements.filter fun s => !s.value.isIdle)).filterMap placeError? =
      (assemble source).placeErrors := by
  refine ⟨entries_eq_filterMap_cells _, ?_, ?_, ?_, filterMap_place_idle (fun _ _ => rfl) 0 _,
    filterMap_place_idle (fun _ _ => rfl) 0 _⟩
  · exact congrArg _ (placeErrors_eq_filterMap_cells _)
  · intro before s after row word
    have entry : ∃ e, s.value.entry? (cellAfter before) s.line = some e ∧
        e.address = cellAfter before := by
      cases value : s.value with
      | origin => cases (value ▸ word : Statement.size (.origin _) = 1)
      | data | instruction => exact ⟨_, rfl, rfl⟩
    obtain ⟨e, found, cell⟩ := entry
    obtain ⟨p, met, told⟩ := told_of_cell row
    refine ⟨e, found, cell, told.trans ?_⟩
    cases met with
    | moved size | ignored size => cases size.symm.trans word
    | placed _ own _ room =>
      rw [if_pos room, Option.some.inj (found.symm.trans own)]
      rfl
    | refused _ _ full =>
      rw [if_neg (Nat.not_le.2 full)]
      rfl
  · intro s member origin
    obtain ⟨before, after, row⟩ := List.append_of_mem member
    obtain ⟨p, met, told⟩ := told_of_cell row
    cases met with
    | moved | ignored => exact ⟨congrArg Prod.fst told, congrArg (fun told => told.2.1) told⟩
    | placed size | refused size => cases origin.symm.trans size

/-- A text in which an origin has no effect, a word is due a cell beyond memory, and a later origin leads back
into it. -/
def scattered : String := "*98
DAT 1
* ; nowhere
HLT
OUT
*3
IN"

open Assembly in
/-- The third word is due cell 100, and the fourth one cell 3. -/
theorem assemble_places_scattered :
    (assemble scattered).statements = (assemble scattered).statements.take 4 ++
        ⟨5, .instruction ⟨.output, 0⟩⟩ :: (assemble scattered).statements.drop 5 ∧
      cellAfter ((assemble scattered).statements.take 4) = 100 ∧
      (assemble scattered).told 5 = ([], [⟨5, .programTooLarge⟩], []) ∧
      (assemble scattered).program.entries =
        [.ofData 98 1 2, .ofInstruction 99 ⟨.halt, 0⟩ 4, .ofInstruction 3 ⟨.input, 0⟩ 7] := by
  have row : (assemble scattered).statements = (assemble scattered).statements.take 4 ++
      ⟨5, .instruction ⟨.output, 0⟩⟩ :: (assemble scattered).statements.drop 5 := by decide +kernel
  have cell : cellAfter ((assemble scattered).statements.take 4) = 100 := by decide +kernel
  obtain ⟨entries, -, words, -⟩ := assemble_places scattered
  obtain ⟨e, -, -, told⟩ := words _ _ _ row rfl
  refine ⟨row, cell, told.trans (if_neg (by omega)), entries.trans (by decide +kernel)⟩

end DecimalMachine
