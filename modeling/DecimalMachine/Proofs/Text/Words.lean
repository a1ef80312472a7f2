/-
# Words, and texts put together from them

A word is a text without blanks and without a character that a comment begins with. A word, or two words
with a space between them, survive everything that is done to a line before its tokens are looked at:
nothing is cut off, nothing is trimmed off, and the tokens are the words. Joined by line feeds, such texts
are split into the same lines again.
-/

import DecimalMachine.Proofs.Text.Layout
import DecimalMachine.Proofs.Text.Numerals

namespace DecimalMachine
namespace Text

/-! ### Words -/

/-- A text that is one token and holds no comment. -/
structure IsWord (text : List Char) : Prop where
  nonempty : text ≠ []
  solid : ∀ c ∈ text, isBlank c = false
  plain : ∀ c ∈ text, c ≠ ';' ∧ c ≠ '/'

/-- Whether a text is a word can be computed. -/
theorem isWord_of_all {text : List Char} (nonempty : text ≠ [])
    (h : (text.all fun c => !isBlank c && (c != ';' && c != '/')) = true) : IsWord text := by
  rw [List.all_eq_true] at h
  refine ⟨nonempty, fun c hc => ?_, fun c hc => ?_⟩
  · simpa using (Bool.and_eq_true_iff.1 (h c hc)).1
  · simpa using (Bool.and_eq_true_iff.1 (h c hc)).2

/-- A number is written as a word. -/
theorem IsSigned.isWord {text : List Char} {value : Int} (h : IsSigned text value) : IsWord text where
  nonempty := h.ne_nil
  solid := h.isBlank
  plain := by
    intro c hc
    constructor
    · rintro rfl
      exact absurd (h.mem hc) (by decide)
    · rintro rfl
      exact absurd (h.mem hc) (by decide)

/-- A numeral is a word: it has no blanks and starts no comment. -/
theorem IsNumeral.isWord {text : List Char} {value : Int} (h : IsNumeral text value) : IsWord text :=
  h.signed.isWord

/-- The mark of data is a word. -/
theorem isWord_dat : IsWord ['D', 'A', 'T'] := isWord_of_all (by decide) (by decide)

/-- A text that stays as it is, with its tokens. -/
structure LaidOut (text : List Char) (tokens : List (List Char)) : Prop where
  uncommented : Uncommented text text
  trimmed : Trimmed text text
  tokenised : Tokenised text tokens

/-- A text without semicolons and slashes is all outside of comments. -/
theorem uncommented_self {text : List Char} (h : ∀ c ∈ text, c ≠ ';' ∧ c ≠ '/') :
    Uncommented text text := by
  refine ⟨⟨[], (List.append_nil text).symm, .inl rfl⟩, ?_⟩
  rintro before after rfl (⟨tail, rfl⟩ | ⟨tail, rfl⟩)
  · exact absurd rfl (h ';' (by simp)).1
  · exact absurd rfl (h '/' (by simp)).2

/-- A text without blanks at its ends is trimmed. -/
theorem trimmed_self {text : List Char} (head : ∀ c, text.head? = some c → isBlank c = false)
    (last : ∀ c, text.getLast? = some c → isBlank c = false) : Trimmed text text :=
  ⟨⟨[], [], (List.append_nil text).symm, List.forall_mem_nil _, List.forall_mem_nil _⟩, head, last⟩

/-- A word is its own only token. -/
theorem IsWord.tokenised {text : List Char} (h : IsWord text) : Tokenised text [text] := by
  have hend := (Tokenised.blank (List.forall_mem_nil _)).cons_token h.solid h.nonempty nofun
  rw [List.append_nil] at hend
  exact hend

/-- A word is laid out as it is. -/
theorem IsWord.laidOut {text : List Char} (h : IsWord text) : LaidOut text [text] where
  uncommented := uncommented_self h.plain
  trimmed := trimmed_self (fun c hc => h.solid c (List.mem_of_head? hc))
    (fun c hc => h.solid c (List.mem_of_getLast? hc))
  tokenised := h.tokenised

/-- Two words with a space between them. -/
theorem IsWord.laidOut_pair {a b : List Char} (ha : IsWord a) (hb : IsWord b) :
    LaidOut (a ++ ' ' :: b) [a, b] where
  uncommented := by
    refine uncommented_self fun c hc => ?_
    rcases List.mem_append.1 hc with hc | hc
    · exact ha.plain c hc
    · rcases List.mem_cons.1 hc with rfl | hc
      · decide
      · exact hb.plain c hc
  trimmed := by
    refine trimmed_self (fun c hc => ha.solid c ?_) (fun c hc => hb.solid c ?_)
    · rw [List.head?_append, List.head?_eq_some_head ha.nonempty, Option.some_or] at hc
      exact List.mem_of_head? ((List.head?_eq_some_head ha.nonempty).trans hc)
    · rw [List.append_cons, List.getLast?_append, List.getLast?_eq_some_getLast hb.nonempty,
        Option.some_or] at hc
      exact List.mem_of_getLast? ((List.getLast?_eq_some_getLast hb.nonempty).trans hc)
  tokenised := (hb.tokenised.cons_blank (by decide)).cons_token ha.solid ha.nonempty (by
    rintro c hc
    obtain rfl : ' ' = c := Option.some.inj hc
    decide)

/-! ### Lines -/

/-- A text that is a line of its own, whatever stands around it. -/
structure IsLine (text : List Char) : Prop where
  nonempty : text ≠ []
  feedless : '\n' ∉ text
  returnless : '\r' ∉ text

/-- A word can stand on a line. -/
theorem IsWord.isLine {text : List Char} (h : IsWord text) : IsLine text where
  nonempty := h.nonempty
  feedless := fun hc => absurd (h.solid _ hc) (by decide)
  returnless := fun hc => absurd (h.solid _ hc) (by decide)

/-- Two lines, with a space in between, make one. -/
theorem IsLine.pair {a b : List Char} (ha : IsLine a) (hb : IsLine b) : IsLine (a ++ ' ' :: b) where
  nonempty := by simp
  feedless := by simp [ha.feedless, hb.feedless]
  returnless := by simp [ha.returnless, hb.returnless]

/-- A line without a carriage return loses nothing. -/
theorem dropReturn_of_not_mem {line : List Char} (h : '\r' ∉ line) : dropReturn line = line := by
  unfold dropReturn
  split
  · exact absurd List.mem_cons_self h
  · rfl

/-- Up to its line feed a line is collected backwards. -/
theorem linesFrom_append_feed {text : List Char} (h : '\n' ∉ text) (current rest : List Char) :
    linesFrom current (text ++ '\n' :: rest) =
      (dropReturn (text.reverse ++ current)).reverse :: lines rest := by
  induction text generalizing current with
  | nil => rfl
  | cons c text ih =>
    obtain ⟨hc, htext⟩ := not_or.1 (fun hor => h (List.mem_cons.2 hor))
    rw [List.cons_append, linesFrom, if_neg (Ne.symm hc), ih htext]
    simp

/-- A last line without a line feed is collected to the end. -/
theorem linesFrom_of_feedless {text : List Char} (h : '\n' ∉ text) (current : List Char) :
    linesFrom current text =
      if (text.reverse ++ current).isEmpty then [] else [(text.reverse ++ current).reverse] := by
  induction text generalizing current with
  | nil => rfl
  | cons c text ih =>
    obtain ⟨hc, htext⟩ := not_or.1 (fun hor => h (List.mem_cons.2 hor))
    rw [linesFrom, if_neg (Ne.symm hc), ih htext]
    simp

/-- A line with its line feed comes first among the lines. -/
theorem IsLine.lines_feed {text : List Char} (h : IsLine text) (rest : List Char) :
    lines (text ++ '\n' :: rest) = text :: lines rest := by
  have hreturn : dropReturn (text.reverse ++ []) = text.reverse := by
    rw [List.append_nil]
    exact dropReturn_of_not_mem fun hc => h.returnless (List.mem_reverse.1 hc)
  rw [lines, linesFrom_append_feed h.feedless, hreturn, List.reverse_reverse]

/-- A line without one is the only line. -/
theorem IsLine.lines_self {text : List Char} (h : IsLine text) : lines text = [text] := by
  have hempty : text.reverse.isEmpty = false := by simpa using h.nonempty
  rw [lines, linesFrom_of_feedless h.feedless, List.append_nil, hempty, List.reverse_reverse]
  rfl

/-- **Lines that are joined by line feeds are split into the same lines.** -/
theorem lines_intercalate {texts : List (List Char)} (h : ∀ text ∈ texts, IsLine text) :
    lines (['\n'].intercalate texts) = texts := by
  induction texts with
  | nil => rfl
  | cons text rest ih =>
    obtain ⟨htext, hrest⟩ := List.forall_mem_cons.1 h
    rcases rest with _ | ⟨next, rest⟩
    · rw [List.intercalate_singleton]
      exact htext.lines_self
    · rw [List.intercalate_cons_cons, List.append_assoc, List.singleton_append, htext.lines_feed,
        ih hrest]

end Text
end DecimalMachine
