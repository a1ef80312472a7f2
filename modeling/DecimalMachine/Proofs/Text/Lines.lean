/-
# Lines of texts that are put together

A text is split into lines at its line feeds, so that a text which is put together behind a line feed has the
lines of both parts. The end of a line is not a part of it, and it makes no difference how it is written:

| text | its lines |
| --- | --- |
| what begins a line, and what follows | those of the one and those of the other |
| a row of lines, each with a line feed | these, without a carriage return at the end |
| every line feed with a carriage return in front | the same |
| a line feed more at the end | the same, or one more that is empty |
-/

import DecimalMachine.Proofs.Text.Words

namespace DecimalMachine
namespace Text

/-- A line without the carriage return that may belong to its end. -/
def withoutReturn (line : List Char) : List Char := (dropReturn line.reverse).reverse

/-- The text of lines, each of them ended by a line feed. -/
def joined (lines : List (List Char)) : List Char := lines.flatMap (· ++ ['\n'])

/-- A text with a carriage return in front of every line feed; one that is there already counts. -/
def withReturns : List Char → List Char
  | [] => []
  | '\r' :: '\n' :: rest => '\r' :: '\n' :: withReturns rest
  | c :: rest => if c = '\n' then '\r' :: '\n' :: withReturns rest else c :: withReturns rest

/-- Whether what follows a text begins a line. -/
def EndsLine (text : List Char) : Prop := text = [] ∨ text.getLast? = some '\n'

/-! ### Carriage returns -/

/-- At most a carriage return is lost. -/
theorem withoutReturn_cases (line : List Char) :
    withoutReturn line = line ∨ line = withoutReturn line ++ ['\r'] := by
  unfold withoutReturn dropReturn
  split
  · next rest h => exact .inr (List.reverse_eq_cons_iff.1 h)
  · exact .inl line.reverse_reverse

/-- A carriage return at the end of a line is dropped. -/
theorem withoutReturn_append_return (line : List Char) : withoutReturn (line ++ ['\r']) = line := by
  rw [withoutReturn, List.reverse_append]
  exact line.reverse_reverse

/-! ### Parts of a text -/

/-- Behind a line feed the lines begin anew. -/
theorem linesFrom_append_ended (current left right : List Char) :
    linesFrom current (left ++ '\n' :: right) = linesFrom current (left ++ ['\n']) ++ lines right := by
  induction left generalizing current with
  | nil => rfl
  | cons c left ih =>
    rw [List.cons_append, List.cons_append, linesFrom, linesFrom, ih, ih]
    split <;> rfl

/-- **The lines of two parts are those of the first and those of the second**, if a line ends between
them. -/
theorem EndsLine.lines_append {left : List Char} (h : EndsLine left) (right : List Char) :
    lines (left ++ right) = lines left ++ lines right := by
  rcases h with rfl | last
  · rfl
  · obtain ⟨left, rfl⟩ := List.getLast?_eq_some_iff.1 last
    rw [List.append_assoc, List.singleton_append, lines, linesFrom_append_ended, ← lines]

/-- The first line, up to its line feed. -/
theorem lines_append_feed {line : List Char} (h : '\n' ∉ line) (rest : List Char) :
    lines (line ++ '\n' :: rest) = withoutReturn line :: lines rest := by
  rw [lines, linesFrom_append_feed h, List.append_nil, withoutReturn]

/-- The last line, if it has no line feed. -/
theorem lines_of_feedless {line : List Char} (h : '\n' ∉ line) :
    lines line = if line = [] then [] else [line] := by
  rw [lines, linesFrom_of_feedless h, List.append_nil, List.reverse_reverse]
  simp only [List.isEmpty_iff, List.reverse_eq_nil_iff]

/-- **Lines that are joined are split again**, without a carriage return at their ends. -/
theorem lines_joined {rows : List (List Char)} (h : ∀ line ∈ rows, '\n' ∉ line) :
    lines (joined rows) = rows.map withoutReturn := by
  induction rows with
  | nil => rfl
  | cons line rest ih =>
    obtain ⟨hline, hrest⟩ := List.forall_mem_cons.1 h
    rw [joined, List.flatMap_cons, List.append_assoc, List.singleton_append, lines_append_feed hline,
      ← joined, ih hrest, List.map_cons]

/-- Any text is a part that ends a line, and one more line without a line feed. -/
theorem exists_last_line (text : List Char) :
    ∃ before line, text = before ++ line ∧ EndsLine before ∧ '\n' ∉ line := by
  induction text with
  | nil => exact ⟨[], [], rfl, .inl rfl, List.not_mem_nil⟩
  | cons c rest ih =>
    obtain ⟨before, line, rfl, ended, feedless⟩ := ih
    rcases ended with rfl | last
    · by_cases feed : c = '\n'
      · subst feed
        exact ⟨['\n'], line, rfl, .inr rfl, feedless⟩
      · exact ⟨[], c :: line, rfl, .inl rfl, by simp [Ne.symm feed, feedless]⟩
    · refine ⟨c :: before, line, rfl, .inr ?_, feedless⟩
      rw [List.getLast?_cons, last]
      rfl

/-! ### Line ends -/

/-- The induction is on the text; `current` is what was read of its first line, which does not end with a
carriage return that belongs to the line feed behind it. -/
theorem linesFrom_withReturns {current : List Char} (text : List Char)
    (apart : current.head? = some '\r' → text.head? ≠ some '\n') :
    linesFrom current (withReturns text) = linesFrom current text := by
  fun_induction withReturns text generalizing current with
  | case1 => rfl
  | case2 rest ih =>
    have later : linesFrom [] (withReturns rest) = linesFrom [] rest := ih nofun
    simp only [linesFrom, reduceIte, later]
  | case3 rest _ ih =>
    have later : linesFrom [] (withReturns rest) = linesFrom [] rest := ih nofun
    have stays : dropReturn current = current := by
      unfold dropReturn
      split
      · exact absurd rfl (apart rfl)
      · rfl
    simp only [linesFrom, reduceIte, later, stays]
    rfl
  | case4 c rest pair feed ih =>
    have later : linesFrom (c :: current) (withReturns rest) = linesFrom (c :: current) rest := by
      refine ih fun carriage behind => ?_
      obtain rfl : c = '\r' := Option.some.inj carriage
      obtain ⟨tail, rfl⟩ := List.head?_eq_some_iff.1 behind
      exact pair tail rfl rfl
    rw [linesFrom, linesFrom, if_neg feed, if_neg feed, later]

/-- **It makes no difference how the ends of lines are written.** -/
theorem lines_withReturns (text : List Char) : lines (withReturns text) = lines text :=
  linesFrom_withReturns text nofun

end Text
end DecimalMachine
