/-
# Tokens of a text that is changed

The tokens of a text are split at every blank, and all that is said here of blanks follows from this one
equation (`tokens_append_blank`): blanks at the ends make no difference, and between tokens one blank is as
good as another.

| what is done to a text | its tokens | what stands before its comment |
| --- | --- | --- |
| blanks at an end | the same | with the blanks |
| other blanks between two parts | the same | with the other blanks |
| upper case | in upper case | in upper case |
| a comment behind it | | the same, unless both meet in the middle of `//` |

A numeral stands alone as one token, so that the tokens of a text tell which number it is.
-/

import DecimalMachine.Proofs.Text.Words

namespace DecimalMachine
namespace Text

/-! ### Blanks -/

/-- The token that is read when a blank comes ends there. -/
theorem tokensFrom_append_blank {c : Char} (h : isBlank c = true) (current left right : List Char) :
    tokensFrom current (left ++ c :: right) = tokensFrom current left ++ tokens right := by
  induction left generalizing current with
  | nil =>
    rw [List.nil_append, tokensFrom, tokensFrom, if_pos h]
    split <;> rfl
  | cons d left ih =>
    rw [List.cons_append, tokensFrom, tokensFrom, ih [], ih (d :: current)]
    split
    · split <;> rfl
    · rfl

/-- **Tokens are split at a blank.** -/
theorem tokens_append_blank {c : Char} (h : isBlank c = true) (left right : List Char) :
    tokens (left ++ c :: right) = tokens left ++ tokens right :=
  tokensFrom_append_blank h [] left right

/-- Blanks have no tokens. -/
theorem tokens_of_blanks {text : List Char} (h : ∀ c ∈ text, isBlank c = true) : tokens text = [] :=
  (tokenised_iff.1 (.blank h)).symm

/-- Blanks part the tokens on either side, however many there are. -/
theorem tokens_append_blanks {between : List Char} (h : ∀ c ∈ between, isBlank c = true)
    (nonempty : between ≠ []) (left right : List Char) :
    tokens (left ++ between ++ right) = tokens left ++ tokens right := by
  obtain ⟨c, rest, rfl⟩ := List.exists_cons_of_ne_nil nonempty
  obtain ⟨hc, hrest⟩ := List.forall_mem_cons.1 h
  have skipped : tokens (rest ++ right) = tokens right := tokensFrom_blanks hrest right
  rw [List.append_assoc, List.cons_append, tokens_append_blank hc, skipped]

/-- Leading blanks make no difference. -/
theorem tokens_blanks_append {blanks : List Char} (h : ∀ c ∈ blanks, isBlank c = true)
    (text : List Char) : tokens (blanks ++ text) = tokens text := tokensFrom_blanks h text

/-- Neither do trailing ones. -/
theorem tokens_append_of_blanks {blanks : List Char} (h : ∀ c ∈ blanks, isBlank c = true)
    (text : List Char) : tokens (text ++ blanks) = tokens text := by
  cases blanks with
  | nil => rw [List.append_nil]
  | cons c rest =>
    obtain ⟨hc, hrest⟩ := List.forall_mem_cons.1 h
    rw [tokens_append_blank hc, tokens_of_blanks hrest, List.append_nil]

/-- Neither does trimming. -/
theorem tokens_trim (text : List Char) : tokens (trim text) = tokens text := by
  obtain ⟨⟨left, right, same, hleft, hright⟩, -, -⟩ := trimmed_trim text
  calc tokens (trim text)
      = tokens (left ++ trim text ++ right) := by
        rw [tokens_append_of_blanks hright, tokens_blanks_append hleft]
    _ = tokens text := by rw [← same]

/-- A text is blank exactly if it has no tokens. -/
theorem trim_eq_nil_iff {text : List Char} : trim text = [] ↔ tokens text = [] := by
  constructor
  · intro h
    rw [← tokens_trim, h, tokens_nil]
  · intro h
    have blanks := (tokenised_iff.2 h.symm).blank_of_nil
    have nothing : ∀ c, ([] : List Char).head? = some c → isBlank c = false := nofun
    exact (trimmed_iff.1 ⟨⟨text, [], by simp, blanks, List.forall_mem_nil _⟩, nothing, nofun⟩).symm

/-- A trailing blank is trimmed off. -/
theorem trim_append_blank {c : Char} (h : isBlank c = true) (text : List Char) :
    trim (text ++ [c]) = trim text := by
  obtain ⟨⟨left, right, same, hleft, hright⟩, head, last⟩ := trimmed_trim text
  refine (trimmed_iff.1 ⟨⟨left, right ++ [c], ?_, hleft, ?_⟩, head, last⟩).symm
  · rw [← List.append_assoc, ← same]
  · exact List.forall_mem_append.2 ⟨hright, List.forall_mem_singleton.2 h⟩

/-! ### The first token -/

/-- A text that begins with no blank begins with its first token, and the others are those of the rest. -/
theorem exists_first_token {text first : List Char} {others : List (List Char)}
    (head : ∀ c, text.head? = some c → isBlank c = false) (h : tokens text = first :: others) :
    ∃ rest, text = first ++ rest ∧ first ≠ [] ∧ (∀ c ∈ first, isBlank c = false) ∧
      (∀ c, rest.head? = some c → isBlank c = true) ∧ tokens rest = others := by
  have split : Tokenised text (first :: others) := tokenised_iff.2 h.symm
  cases split with
  | @token left _ rest _ blanks solid nonempty ends tail =>
    cases left with
    | nil => exact ⟨rest, rfl, nonempty, solid, ends, (tokenised_iff.1 tail).symm⟩
    | cons d left => exact absurd (blanks d List.mem_cons_self) (by simp [head d rfl])

/-- Behind the first token are the others. -/
theorem tokens_drop_length {text first : List Char} {others : List (List Char)}
    (head : ∀ c, text.head? = some c → isBlank c = false) (h : tokens text = first :: others) :
    tokens (text.drop first.length) = others := by
  obtain ⟨rest, rfl, -, -, -, own⟩ := exists_first_token head h
  rw [List.drop_left]
  exact own

/-- A text without a leading blank begins with its first token. -/
theorem head?_of_tokens {text first : List Char} {others : List (List Char)}
    (head : ∀ c, text.head? = some c → isBlank c = false) (h : tokens text = first :: others) :
    first.head? = text.head? := by
  obtain ⟨rest, rfl, nonempty, -⟩ := exists_first_token head h
  obtain ⟨c, first, rfl⟩ := List.exists_cons_of_ne_nil nonempty
  rfl

/-- Tokens without the first character of the first one. -/
def dropMark : List (List Char) → List (List Char)
  | [] => []
  | first :: others =>
    match first.tail with
    | [] => others
    | rest => rest :: others

/-- What is left of the tokens of a text without its first character. -/
theorem tokens_dropMark {c : Char} (h : isBlank c = false) (text : List Char) :
    dropMark (tokens (c :: text)) = tokens text := by
  cases row : tokens (c :: text) with
  | nil =>
    have blanks := (tokenised_iff.2 row.symm).blank_of_nil
    exact absurd (blanks c List.mem_cons_self) (by simp [h])
  | cons first others =>
    have head : ∀ d, (c :: text).head? = some d → isBlank d = false := by
      rintro d ⟨⟩
      exact h
    obtain ⟨rest, whole, nonempty, solid, ends, own⟩ := exists_first_token head row
    obtain ⟨d, token, rfl⟩ := List.exists_cons_of_ne_nil nonempty
    obtain rfl : text = token ++ rest := (List.cons.inj whole).2
    cases token with
    | nil => exact own.symm
    | cons e token =>
      have tail : Tokenised rest others := tokenised_iff.2 own.symm
      exact tokenised_iff.1 (tail.cons_token (List.forall_mem_cons.1 solid).2 (by simp) ends)

/-! ### Numerals -/

/-- The number that tokens write if there is but one of them. -/
def soleNumeral? : List (List Char) → Option Int
  | [token] => numeral? token
  | _ => none

/-- A numeral is one token. -/
theorem tokens_of_isNumeral {text : List Char} {value : Int} (h : IsNumeral text value) :
    tokens text = [text] := (tokenised_iff.1 h.isWord.tokenised).symm

/-- A text of one token is trimmed to it. -/
theorem trim_of_tokens {text token : List Char} (h : tokens text = [token]) : trim text = token := by
  have split : Tokenised text [token] := tokenised_iff.2 h.symm
  cases split with
  | @token left _ rest _ blanks solid nonempty ends tail =>
    refine (trimmed_iff.1 ⟨⟨left, rest, rfl, blanks, tail.blank_of_nil⟩, ?_, ?_⟩).symm
    · exact fun c hc => solid c (List.mem_of_head? hc)
    · exact fun c hc => solid c (List.mem_of_getLast? hc)

/-- **The tokens of a text tell its number.** -/
theorem numeral?_trim (text : List Char) : numeral? (trim text) = soleNumeral? (tokens text) := by
  ext value
  constructor
  · intro h
    have sole := tokens_of_isNumeral (numeral?_eq_some_iff.1 h)
    rw [tokens_trim] at sole
    rw [sole]
    exact h
  · intro h
    unfold soleNumeral? at h
    split at h
    · next token sole =>
      rw [trim_of_tokens sole]
      exact h
    · cases h

/-! ### Comments -/

/-- A character that starts no comment stays. -/
theorem withoutComment_cons {c : Char} {rest : List Char} (h : ¬ StartsComment (c :: rest)) :
    withoutComment (c :: rest) = c :: withoutComment rest :=
  (uncommented_iff.1 ((uncommented_withoutComment rest).cons h)).symm

/-- **A comment is looked for in one part of a line after the other**, if none begins across both. -/
theorem withoutComment_append {left right : List Char}
    (h : left.getLast? ≠ some '/' ∨ right.head? ≠ some '/') :
    withoutComment (left ++ right) =
      if withoutComment left = left then left ++ withoutComment right else withoutComment left := by
  fun_induction withoutComment left with
  | case1 => exact (if_pos rfl).symm
  | case2 rest => exact (if_neg (List.cons_ne_nil _ _).symm).symm
  | case3 rest => exact (if_neg (List.cons_ne_nil _ _).symm).symm
  | case4 c rest semicolon slashes ih =>
    have apart : rest.getLast? ≠ some '/' ∨ right.head? ≠ some '/' := by
      cases rest with
      | nil => exact .inl (Option.some_ne_none '/').symm
      | cons d rest => rwa [List.getLast?_cons_cons] at h
    have plain : ¬ StartsComment (c :: (rest ++ right)) := by
      rintro (⟨tail, same⟩ | ⟨tail, same⟩)
      · exact semicolon (List.cons.inj same).1.symm
      · obtain ⟨rfl, behind⟩ := List.cons.inj same
        cases rest with
        | nil =>
          rcases h with h | h
          · exact h rfl
          · rw [List.nil_append] at behind
            rw [← behind] at h
            exact h rfl
        | cons d rest =>
          obtain rfl : '/' = d := (List.cons.inj behind).1
          exact slashes rest rfl rfl
    rw [List.cons_append, withoutComment_cons plain, ih apart]
    split
    · next whole => rw [if_pos (by rw [whole]), List.cons_append]
    · next cut => rw [if_neg fun same => cut (List.cons.inj same).2]

/-- A text without semicolons and slashes has no comment. -/
theorem withoutComment_of_plain {text : List Char} (h : ∀ c ∈ text, c ≠ ';' ∧ c ≠ '/') :
    withoutComment text = text := (uncommented_iff.1 (uncommented_self h)).symm

/-- Neither a semicolon nor a slash is a blank. -/
theorem plain_of_blanks {blanks : List Char} (h : ∀ c ∈ blanks, isBlank c = true) :
    ∀ c ∈ blanks, c ≠ ';' ∧ c ≠ '/' := by
  refine fun c hc => ⟨?_, ?_⟩
  · rintro rfl
    exact absurd (h _ hc) (by decide)
  · rintro rfl
    exact absurd (h _ hc) (by decide)

/-- Blanks do not end with a slash, which could start a comment with one behind. -/
theorem getLast?_ne_slash_of_blanks {blanks : List Char} (h : ∀ c ∈ blanks, isBlank c = true) :
    blanks.getLast? ≠ some '/' := fun last =>
  (plain_of_blanks h _ (List.mem_of_getLast? last)).2 rfl

/-- Blanks do not begin with one. -/
theorem head?_ne_slash_of_blanks {blanks : List Char} (h : ∀ c ∈ blanks, isBlank c = true) :
    blanks.head? ≠ some '/' := fun first =>
  (plain_of_blanks h _ (List.mem_of_head? first)).2 rfl

/-- Blanks in front of a line are no comment. -/
theorem withoutComment_blanks_append {blanks : List Char} (h : ∀ c ∈ blanks, isBlank c = true)
    (line : List Char) : withoutComment (blanks ++ line) = blanks ++ withoutComment line := by
  rw [withoutComment_append (.inl (getLast?_ne_slash_of_blanks h)),
    if_pos (withoutComment_of_plain (plain_of_blanks h))]

/-- Behind a line, blanks stay or are in its comment. -/
theorem withoutComment_append_of_blanks {blanks : List Char} (h : ∀ c ∈ blanks, isBlank c = true)
    (line : List Char) : withoutComment (line ++ blanks) =
      if withoutComment line = line then line ++ blanks else withoutComment line := by
  rw [withoutComment_append (.inr (head?_ne_slash_of_blanks h)),
    withoutComment_of_plain (plain_of_blanks h)]

/-- A comment that is put behind a line is cut off again. -/
theorem withoutComment_append_comment {line comment : List Char} (starts : StartsComment comment)
    (h : line.getLast? ≠ some '/' ∨ comment.head? ≠ some '/') :
    withoutComment (line ++ comment) = withoutComment line := by
  have nothing : withoutComment comment = [] :=
    (uncommented_iff.1 (uncommented_of_startsComment starts)).symm
  rw [withoutComment_append h, nothing, List.append_nil]
  split
  · next whole => exact whole.symm
  · rfl

/-! ### Upper case -/

/-- A character is in upper case, or it is a small letter and goes to a capital one. -/
theorem toUpper_cases (c : Char) :
    c.toUpper = c ∨ (97 ≤ c.toNat ∧ c.toNat ≤ 122 ∧ c.toUpper.toNat = c.toNat - 32) := by
  unfold Char.toUpper
  split
  · next h =>
    right
    have low : 97 ≤ c.val.toNat := UInt32.le_iff_toNat_le.1 h.1
    have high : c.val.toNat ≤ 122 := UInt32.le_iff_toNat_le.1 h.2
    refine ⟨low, high, ?_⟩
    show (c.val + ('A'.val - 'a'.val)).toNat = c.val.toNat - 32
    have less : ('A'.val - 'a'.val).toNat = 4294967264 := by decide
    rw [UInt32.toNat_add, less]
    omega
  · exact .inl rfl

/-- A character that comes before all letters is not changed, and none is changed into it. -/
theorem toUpper_eq_iff {c d : Char} (h : d.toNat < 65) : c.toUpper = d ↔ c = d := by
  rcases toUpper_cases c with same | ⟨low, high, shifted⟩
  · rw [same]
  · constructor
    · rintro rfl
      omega
    · rintro rfl
      omega

/-- A capital letter stays one. -/
theorem toUpper_toUpper (c : Char) : c.toUpper.toUpper = c.toUpper := by
  rcases toUpper_cases c.toUpper with same | ⟨low, high, -⟩
  · exact same
  · rcases toUpper_cases c with same | ⟨-, small, shifted⟩
    · rw [same, same]
    · omega

/-- Blanks have no case. -/
theorem isBlank_toUpper (c : Char) : isBlank c.toUpper = isBlank c := by
  have solid {d : Char} (low : 65 ≤ d.toNat) (high : d.toNat ≤ 122) : isBlank d = false := by
    unfold isBlank blankRanges
    simp only [List.any_cons, List.any_nil, Bool.or_false, Bool.or_eq_false_iff,
      Bool.and_eq_false_iff, decide_eq_false_iff_not]
    omega
  rcases toUpper_cases c with same | ⟨low, high, shifted⟩
  · rw [same]
  · rw [solid (by omega) (by omega), solid (by omega) high]

/-- The tokens of a text in capitals are its tokens in capitals. -/
theorem tokensFrom_map_toUpper (current text : List Char) :
    tokensFrom (current.map Char.toUpper) (text.map Char.toUpper) =
      (tokensFrom current text).map (List.map Char.toUpper) := by
  induction text generalizing current with
  | nil => cases current <;> simp [tokensFrom]
  | cons c text ih =>
    have hnil := ih []
    have hcons := ih (c :: current)
    rw [List.map_nil] at hnil
    rw [List.map_cons] at hcons
    rw [List.map_cons, tokensFrom, tokensFrom, isBlank_toUpper, hnil, hcons]
    cases current <;> cases isBlank c <;> simp

/-- **A text in upper case has its tokens in upper case.** -/
theorem tokens_map_toUpper (text : List Char) :
    tokens (text.map Char.toUpper) = (tokens text).map (List.map Char.toUpper) :=
  tokensFrom_map_toUpper [] text

/-- Comments have no case. -/
theorem startsComment_map_toUpper {text : List Char} :
    StartsComment (text.map Char.toUpper) ↔ StartsComment text := by
  have semicolon {c : Char} : c.toUpper = ';' ↔ c = ';' := toUpper_eq_iff (by decide)
  have slash {c : Char} : c.toUpper = '/' ↔ c = '/' := toUpper_eq_iff (by decide)
  constructor
  · rintro (⟨tail, same⟩ | ⟨tail, same⟩)
    · obtain ⟨c, rest, rfl, hc, -⟩ := List.map_eq_cons_iff.1 same.symm
      rw [semicolon.1 hc]
      exact startsComment_semicolon rest
    · obtain ⟨c, rest, rfl, hc, hrest⟩ := List.map_eq_cons_iff.1 same.symm
      obtain ⟨d, rest, rfl, hd, -⟩ := List.map_eq_cons_iff.1 hrest
      rw [slash.1 hc, slash.1 hd]
      exact startsComment_slashes rest
  · rintro (h | h)
    · exact .inl (h.map Char.toUpper)
    · exact .inr (h.map Char.toUpper)

/-- So a comment can be cut off before or after. -/
theorem withoutComment_map_toUpper (line : List Char) :
    withoutComment (line.map Char.toUpper) = (withoutComment line).map Char.toUpper := by
  induction line with
  | nil => rfl
  | cons c rest ih =>
    by_cases starts : StartsComment (c :: rest)
    · have upper := startsComment_map_toUpper.2 starts
      rw [← uncommented_iff.1 (uncommented_of_startsComment starts),
        ← uncommented_iff.1 (uncommented_of_startsComment upper)]
      rfl
    · have upper : ¬ StartsComment ((c :: rest).map Char.toUpper) :=
        fun h => starts (startsComment_map_toUpper.1 h)
      rw [withoutComment_cons starts, List.map_cons, List.map_cons, ← ih]
      exact withoutComment_cons upper

/-- Signs and digits come before all letters. -/
theorem IsSigned.toNat_lt {text : List Char} {value : Int} (h : IsSigned text value) :
    ∀ c ∈ text, c.toNat < 65 := by
  intro c hc
  rcases h.mem hc with rfl | rfl | digit
  · decide
  · decide
  · simp only [Char.isDigit, Bool.and_eq_true, decide_eq_true_eq] at digit
    have low : c.toNat ≤ 57 := UInt32.le_iff_toNat_le.1 digit.2
    omega

/-- A text in which no character has a capital stays as it is. -/
theorem map_toUpper_eq_self {text : List Char} (h : ∀ c ∈ text, c.toUpper = c) :
    text.map Char.toUpper = text := (List.map_congr_left h).trans (List.map_id text)

/-- **The case of letters makes no difference to a number**, because a numeral has none. -/
theorem numeral?_map_toUpper (text : List Char) : numeral? (text.map Char.toUpper) = numeral? text := by
  ext value
  constructor
  · intro h
    have numeral := numeral?_eq_some_iff.1 h
    have same : text.map Char.toUpper = text := map_toUpper_eq_self fun c hc =>
      ((toUpper_eq_iff (numeral.signed.toNat_lt _ (List.mem_map_of_mem hc))).1 rfl).symm
    rwa [same] at h
  · intro h
    have numeral := numeral?_eq_some_iff.1 h
    rwa [map_toUpper_eq_self fun c hc => (toUpper_eq_iff (numeral.signed.toNat_lt c hc)).2 rfl]

/-- A numeral has no case. -/
theorem soleNumeral?_map_toUpper (row : List (List Char)) :
    soleNumeral? (row.map (List.map Char.toUpper)) = soleNumeral? row := by
  rcases row with _ | ⟨token, _ | ⟨next, others⟩⟩
  · rfl
  · exact numeral?_map_toUpper token
  · rfl

/-- The mark of data is recognised in either case. -/
theorem dropMark_map_toUpper (row : List (List Char)) :
    dropMark (row.map (List.map Char.toUpper)) = (dropMark row).map (List.map Char.toUpper) := by
  rcases row with _ | ⟨_ | ⟨c, _ | ⟨d, first⟩⟩, others⟩ <;> rfl

end Text
end DecimalMachine
