/-
# Comments, blanks and tokens, described

What is cut off a line, trimmed off a text and split into tokens is computed character by character. Here
each of the three is described by what it leaves, without a word on how it is found:

| description | what it says |
| --- | --- |
| `Uncommented line kept` | `kept` ends where the first comment starts, or the line ends |
| `Trimmed text kept` | `kept` neither starts nor ends with a blank; around it stand only blanks |
| `Tokenised text tokens` | the tokens hold no blank, and between any two of them stands one |

Each description fits exactly one result, the computed one.
-/

import DecimalMachine.Text.Blank
import DecimalMachine.Text.Line
import Mathlib.Data.List.TakeWhile

namespace DecimalMachine
namespace Text

/-! ### Comments -/

/-- A text that a comment starts. -/
def StartsComment (text : List Char) : Prop := [';'] <+: text ∨ ['/', '/'] <+: text

/-- What stands in a line before its first comment, or the whole line if it has none. -/
structure Uncommented (line kept : List Char) : Prop where
  cut : ∃ rest, line = kept ++ rest ∧ (rest = [] ∨ StartsComment rest)
  first : ∀ before after, line = before ++ after → StartsComment after →
    kept.length ≤ before.length

/-- A semicolon starts a comment. -/
theorem startsComment_semicolon (rest : List Char) : StartsComment (';' :: rest) :=
  .inl ⟨rest, rfl⟩

/-- Two slashes start a comment. -/
theorem startsComment_slashes (rest : List Char) : StartsComment ('/' :: '/' :: rest) :=
  .inr ⟨rest, rfl⟩

/-- A line that a comment starts keeps nothing. -/
theorem uncommented_of_startsComment {line : List Char} (h : StartsComment line) :
    Uncommented line [] :=
  ⟨⟨line, rfl, .inr h⟩, fun _ _ _ _ => Nat.zero_le _⟩

/-- A character that starts no comment is kept in front. -/
theorem Uncommented.cons {c : Char} {rest kept : List Char} (h : Uncommented rest kept)
    (plain : ¬ StartsComment (c :: rest)) : Uncommented (c :: rest) (c :: kept) := by
  obtain ⟨⟨dropped, hcut, hdropped⟩, hfirst⟩ := h
  refine ⟨⟨dropped, by rw [hcut]; rfl, hdropped⟩, ?_⟩
  intro before after split starts
  cases before with
  | nil =>
    rw [List.nil_append] at split
    exact absurd (split ▸ starts) plain
  | cons d before =>
    rw [List.cons_append] at split
    have shorter := hfirst before after (List.cons.inj split).2 starts
    rw [List.length_cons, List.length_cons]
    omega

/-- What is cut off a line is its first comment. -/
theorem uncommented_withoutComment (line : List Char) : Uncommented line (withoutComment line) := by
  fun_induction withoutComment line with
  | case1 => exact ⟨⟨[], rfl, .inl rfl⟩, fun _ _ _ _ => Nat.zero_le _⟩
  | case2 rest => exact uncommented_of_startsComment (startsComment_semicolon rest)
  | case3 rest => exact uncommented_of_startsComment (startsComment_slashes rest)
  | case4 c rest semicolon slashes ih =>
    refine ih.cons ?_
    rintro (⟨tail, h⟩ | ⟨tail, h⟩)
    · exact semicolon (List.cons.inj h).1.symm
    · obtain ⟨rfl, htail⟩ := List.cons.inj h
      exact slashes tail rfl htail.symm

/-- What a line keeps is no longer than anything else that it could keep. -/
theorem Uncommented.length_le {line a b : List Char} (ha : Uncommented line a)
    (hb : Uncommented line b) : a.length ≤ b.length := by
  obtain ⟨rest, hcut, hrest⟩ := hb.cut
  rcases hrest with rfl | starts
  · obtain ⟨dropped, hline, -⟩ := ha.cut
    rw [List.append_nil] at hcut
    rw [← hcut, hline, List.length_append]
    omega
  · exact ha.first b rest hcut starts

/-- **A line keeps what stands before its first comment.** -/
theorem uncommented_iff {line kept : List Char} :
    Uncommented line kept ↔ kept = withoutComment line := by
  constructor
  · intro h
    have hw := uncommented_withoutComment line
    obtain ⟨rest, hcut, -⟩ := h.cut
    obtain ⟨tail, hline, -⟩ := hw.cut
    have same : kept.length = (withoutComment line).length :=
      Nat.le_antisymm (h.length_le hw) (hw.length_le h)
    exact (List.append_inj (hcut.symm.trans hline) same).1
  · rintro rfl
    exact uncommented_withoutComment line

/-! ### Trimming -/

/-- What is left of a text without the blanks at its ends. -/
structure Trimmed (text kept : List Char) : Prop where
  parts : ∃ left right, text = left ++ kept ++ right ∧ (∀ c ∈ left, isBlank c = true) ∧
    ∀ c ∈ right, isBlank c = true
  head : ∀ c, kept.head? = some c → isBlank c = false
  last : ∀ c, kept.getLast? = some c → isBlank c = false

/-- Behind leading blanks stands no blank. -/
theorem head?_dropWhile_isBlank {text : List Char} {c : Char}
    (h : (text.dropWhile isBlank).head? = some c) : isBlank c = false := by
  have hc := List.head?_dropWhile_not isBlank text
  rw [h] at hc
  simpa using hc

/-- What is trimmed off are the blanks at both ends. -/
theorem trimmed_trim (text : List Char) : Trimmed text (trim text) := by
  set middle := text.dropWhile isBlank with hmiddle
  have hleft : text = text.takeWhile isBlank ++ middle := List.takeWhile_append_dropWhile.symm
  have hright : middle = trim text ++ (middle.reverse.takeWhile isBlank).reverse := by
    rw [trim, ← hmiddle, ← List.reverse_append, List.takeWhile_append_dropWhile,
      List.reverse_reverse]
  refine ⟨⟨text.takeWhile isBlank, (middle.reverse.takeWhile isBlank).reverse, ?_, ?_, ?_⟩, ?_, ?_⟩
  · rw [List.append_assoc, ← hright]
    exact hleft
  · intro c hc
    exact List.mem_takeWhile_imp hc
  · intro c hc
    exact List.mem_takeWhile_imp (List.mem_reverse.1 hc)
  · intro c hc
    -- The first character that is kept is the first that is no blank.
    refine @head?_dropWhile_isBlank text c ?_
    rw [← hmiddle, hright]
    cases kept : trim text with
    | nil =>
      rw [kept] at hc
      cases hc
    | cons d rest =>
      rw [kept] at hc
      exact hc
  · intro c hc
    rw [trim, List.getLast?_reverse] at hc
    exact head?_dropWhile_isBlank hc

/-- A text without a leading blank loses nothing. -/
theorem dropWhile_eq_self_of_head? {text : List Char}
    (h : ∀ c, text.head? = some c → isBlank c = false) : text.dropWhile isBlank = text := by
  cases text with
  | nil => rfl
  | cons c rest => rw [List.dropWhile_cons_of_neg (by rw [h c rfl]; exact Bool.false_ne_true)]

/-- **A text is trimmed of the blanks at its ends.** -/
theorem trimmed_iff {text kept : List Char} : Trimmed text kept ↔ kept = trim text := by
  constructor
  · rintro ⟨⟨left, right, rfl, hleft, hright⟩, head, last⟩
    have hdrop : (kept ++ right).reverse.dropWhile isBlank = kept.reverse := by
      rw [List.reverse_append, List.dropWhile_append_of_pos fun c hc => hright c (List.mem_reverse.1 hc)]
      refine dropWhile_eq_self_of_head? fun c hc => ?_
      rw [List.head?_reverse] at hc
      exact last c hc
    unfold trim
    rw [List.append_assoc, List.dropWhile_append_of_pos hleft]
    cases kept with
    | nil =>
      rw [List.nil_append, List.dropWhile_eq_nil_iff.2 hright]
      rfl
    | cons c rest =>
      have hhead : isBlank c = false := head c rfl
      have hstays : (c :: rest ++ right).dropWhile isBlank = c :: rest ++ right :=
        dropWhile_eq_self_of_head? fun d hd => by
          obtain rfl : c = d := Option.some.inj hd
          exact hhead
      rw [hstays, hdrop, List.reverse_reverse]
  · rintro rfl
    exact trimmed_trim text

/-! ### Tokens -/

/-- The tokens of a text: runs of characters that are no blanks, with blanks around and between them. -/
inductive Tokenised : List Char → List (List Char) → Prop
  | blank {text : List Char} (h : ∀ c ∈ text, isBlank c = true) : Tokenised text []
  | token {left token rest : List Char} {others : List (List Char)}
      (blanks : ∀ c ∈ left, isBlank c = true) (solid : ∀ c ∈ token, isBlank c = false)
      (nonempty : token ≠ []) (ends : ∀ c, rest.head? = Option.some c → isBlank c = true)
      (tail : Tokenised rest others) : Tokenised (left ++ token ++ rest) (token :: others)

/-- A blank in front makes no difference. -/
theorem Tokenised.cons_blank {c : Char} {text : List Char} {tokens : List (List Char)}
    (h : Tokenised text tokens) (hc : isBlank c = true) : Tokenised (c :: text) tokens := by
  cases h with
  | blank h => exact .blank (List.forall_mem_cons.2 ⟨hc, h⟩)
  | token blanks solid nonempty ends tail =>
    exact .token (List.forall_mem_cons.2 ⟨hc, blanks⟩) solid nonempty ends tail

/-- A token at the beginning of a text. -/
theorem Tokenised.cons_token {token rest : List Char} {others : List (List Char)}
    (h : Tokenised rest others) (solid : ∀ c ∈ token, isBlank c = false) (nonempty : token ≠ [])
    (ends : ∀ c, rest.head? = Option.some c → isBlank c = true) :
    Tokenised (token ++ rest) (token :: others) :=
  @Tokenised.token [] token rest others (List.forall_mem_nil _) solid nonempty ends h

/-- A text without tokens is blank. -/
theorem Tokenised.blank_of_nil {text : List Char} (h : Tokenised text []) :
    ∀ c ∈ text, isBlank c = true := by
  cases h with
  | blank h => exact h

/-- In front of the first token are blanks alone. -/
theorem Tokenised.exists_parts {text token : List Char} {others : List (List Char)}
    (h : Tokenised text (token :: others)) :
    ∃ left rest, text = left ++ token ++ rest ∧ ∀ c ∈ left, isBlank c = true := by
  cases h with
  | @token left _ rest _ blanks _ _ _ _ => exact ⟨left, rest, rfl, blanks⟩

/-- The induction is on the text; `current` is what was read of the token that it begins within. -/
theorem tokenised_tokensFrom {current : List Char} (solid : ∀ c ∈ current, isBlank c = false)
    (text : List Char) : Tokenised (current.reverse ++ text) (tokensFrom current text) := by
  induction text generalizing current with
  | nil =>
    rw [tokensFrom]
    cases current with
    | nil => exact .blank (List.forall_mem_nil _)
    | cons d current =>
      refine (Tokenised.blank (List.forall_mem_nil _)).cons_token ?_ (by simp) nofun
      intro c hc
      exact solid c (List.mem_reverse.1 hc)
  | cons c rest ih =>
    rw [tokensFrom]
    split
    · next hblank =>
      have hrest : Tokenised (c :: rest) (tokensFrom [] rest) :=
        (@ih [] (List.forall_mem_nil _)).cons_blank hblank
      cases current with
      | nil => exact hrest
      | cons d current =>
        refine hrest.cons_token ?_ (by simp) ?_
        · intro e he
          exact solid e (List.mem_reverse.1 he)
        · rintro e he
          obtain rfl : c = e := Option.some.inj he
          exact hblank
    · next hsolid =>
      have hgoes := @ih (c :: current)
        (List.forall_mem_cons.2 ⟨Bool.eq_false_iff.2 hsolid, solid⟩)
      rw [List.reverse_cons, List.append_assoc, List.singleton_append] at hgoes
      exact hgoes

/-- Leading blanks are skipped. -/
theorem tokensFrom_blanks {left : List Char} (h : ∀ c ∈ left, isBlank c = true) (text : List Char) :
    tokensFrom [] (left ++ text) = tokensFrom [] text := by
  induction left with
  | nil => rfl
  | cons c left ih =>
    obtain ⟨hc, hleft⟩ := List.forall_mem_cons.1 h
    rw [List.cons_append, tokensFrom, if_pos hc, ← ih hleft]
    rfl

/-- Characters that are no blanks go on with the token that has begun. -/
theorem tokensFrom_solid {token : List Char} (h : ∀ c ∈ token, isBlank c = false)
    (current text : List Char) :
    tokensFrom current (token ++ text) = tokensFrom (token.reverse ++ current) text := by
  induction token generalizing current with
  | nil => rfl
  | cons c token ih =>
    obtain ⟨hc, htoken⟩ := List.forall_mem_cons.1 h
    rw [List.cons_append, tokensFrom, if_neg (by rw [hc]; exact Bool.false_ne_true), ih htoken]
    simp

/-- A token ends at a blank or with the text. -/
theorem tokensFrom_end {current rest : List Char} (nonempty : current ≠ [])
    (ends : ∀ c, rest.head? = Option.some c → isBlank c = true) :
    tokensFrom current rest = current.reverse :: tokens rest := by
  have hsome : current.isEmpty = false := by simpa using nonempty
  cases rest with
  | nil =>
    rw [tokensFrom, hsome]
    rfl
  | cons c rest =>
    have hblank : isBlank c = true := ends c rfl
    rw [tokensFrom, if_pos hblank, hsome, tokens, tokensFrom, if_pos hblank]
    rfl

/-- **A text is split into its tokens.** -/
theorem tokenised_iff {text : List Char} {split : List (List Char)} :
    Tokenised text split ↔ split = tokens text := by
  constructor
  · intro h
    induction h with
    | @blank text h =>
      have hnil := tokensFrom_blanks h []
      rw [List.append_nil] at hnil
      exact hnil.symm
    | @token left token rest others blanks solid nonempty ends tail ih =>
      rw [tokens, List.append_assoc, tokensFrom_blanks blanks, tokensFrom_solid solid,
        List.append_nil, tokensFrom_end (by simpa using nonempty) ends, List.reverse_reverse, ih]
  · rintro rfl
    exact @tokenised_tokensFrom [] (List.forall_mem_nil _) text

end Text
end DecimalMachine
