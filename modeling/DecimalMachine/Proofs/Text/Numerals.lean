/-
# Numerals, described

A numeral is read digit by digit. Here it is described as it is written, without a word on how it is
read:

| description | what it says |
| --- | --- |
| `IsDigits text` | one decimal digit or more, and nothing else |
| `IsSigned text value` | digits that write `value`, after a sign if there is one |
| `IsNumeral text value` | such a text, and `value` fits in 32 bits |

The numerals are exactly the texts that are read as numbers, and every number that fits is read back
from the text that it is printed as.
-/

import DecimalMachine.Text.Blank
import DecimalMachine.Text.Numeral

namespace DecimalMachine
namespace Text

/-- A nonempty row of decimal digits. -/
structure IsDigits (text : List Char) : Prop where
  nonempty : text ≠ []
  digits : ∀ c ∈ text, c.isDigit = true

/-- `text` writes `value` with digits that may follow a sign. -/
inductive IsSigned : List Char → Int → Prop
  | unsigned {digits : List Char} (h : IsDigits digits) :
      IsSigned digits (Nat.ofDigitChars 10 digits 0)
  | plus {digits : List Char} (h : IsDigits digits) :
      IsSigned ('+' :: digits) (Nat.ofDigitChars 10 digits 0)
  | minus {digits : List Char} (h : IsDigits digits) :
      IsSigned ('-' :: digits) (-Nat.ofDigitChars 10 digits 0)

/-- `text` is a numeral with the given value. -/
structure IsNumeral (text : List Char) (value : Int) : Prop where
  signed : IsSigned text value
  fits : InNumeralRange value

/-! ### Reading -/

/-- A digit has a value. -/
theorem digitValue?_of_isDigit {c : Char} (h : c.isDigit = true) :
    digitValue? c = some (c.toNat - '0'.toNat) := by
  simp only [Char.isDigit, Bool.and_eq_true, decide_eq_true_eq] at h
  exact if_pos h

/-- Only a digit has one. -/
theorem isDigit_of_digitValue? {c : Char} {digit : Nat} (h : digitValue? c = some digit) :
    c.isDigit = true ∧ digit = c.toNat - '0'.toNat := by
  unfold digitValue? at h
  split at h
  · next hc =>
    refine ⟨?_, (Option.some.inj h).symm⟩
    simp only [Char.isDigit, Bool.and_eq_true, decide_eq_true_eq]
    exact hc
  · cases h

/-- Reading on is folding the digits into the number read so far. -/
theorem naturalFrom_eq_some_iff {digits : List Char} {value n : Nat} :
    naturalFrom value digits = some n ↔
      (∀ c ∈ digits, c.isDigit = true) ∧ n = Nat.ofDigitChars 10 digits value := by
  induction digits generalizing value with
  | nil =>
    rw [naturalFrom, Nat.ofDigitChars_nil]
    exact ⟨fun h => ⟨List.forall_mem_nil _, (Option.some.inj h).symm⟩, fun h => congrArg some h.2.symm⟩
  | cons c rest ih =>
    rw [naturalFrom, List.forall_mem_cons, Nat.ofDigitChars_cons]
    constructor
    · intro h
      split at h
      · next digit hdigit =>
        obtain ⟨hc, rfl⟩ := isDigit_of_digitValue? hdigit
        obtain ⟨hrest, hn⟩ := ih.1 h
        exact ⟨⟨hc, hrest⟩, hn⟩
      · cases h
    · rintro ⟨⟨hc, hrest⟩, hn⟩
      rw [digitValue?_of_isDigit hc]
      exact ih.2 ⟨hrest, hn⟩

/-- A text is read as a natural number exactly if it is made of digits. -/
theorem natural?_eq_some_iff {text : List Char} {n : Nat} :
    natural? text = some n ↔ IsDigits text ∧ n = Nat.ofDigitChars 10 text 0 := by
  cases text with
  | nil => exact ⟨nofun, fun h => absurd rfl h.1.nonempty⟩
  | cons c rest =>
    rw [natural?, naturalFrom_eq_some_iff]
    · exact ⟨fun h => ⟨⟨List.cons_ne_nil c rest, h.1⟩, h.2⟩, fun h => ⟨h.1.digits, h.2⟩⟩
    · exact List.cons_ne_nil c rest

/-- What is read as a signed number is one. -/
theorem isSigned_of_signed? {text : List Char} {value : Int} (h : signed? text = some value) :
    IsSigned text value := by
  unfold signed? at h
  split at h
  all_goals
    obtain ⟨n, hn, rfl⟩ := Option.map_eq_some_iff.1 h
    obtain ⟨digits, rfl⟩ := natural?_eq_some_iff.1 hn
  · exact .plus digits
  · exact .minus digits
  · exact .unsigned digits

/-- A digit is no sign, so a text that begins with one is read as a whole. -/
theorem signed?_of_isDigits {text : List Char} (h : IsDigits text) :
    signed? text = (natural? text).map Int.ofNat := by
  unfold signed?
  split
  · exact absurd (h.digits _ List.mem_cons_self) (by decide)
  · exact absurd (h.digits _ List.mem_cons_self) (by decide)
  · rfl

/-- A signed number is read as its value. -/
theorem signed?_of_isSigned {text : List Char} {value : Int} (h : IsSigned text value) :
    signed? text = some value := by
  cases h with
  | unsigned h => rw [signed?_of_isDigits h, natural?_eq_some_iff.2 ⟨h, rfl⟩]; rfl
  | plus h => rw [signed?, natural?_eq_some_iff.2 ⟨h, rfl⟩]; rfl
  | minus h => rw [signed?, natural?_eq_some_iff.2 ⟨h, rfl⟩]; rfl

/-- **The numerals are the texts that are read as numbers.** -/
theorem numeral?_eq_some_iff {text : List Char} {value : Int} :
    numeral? text = some value ↔ IsNumeral text value := by
  rw [numeral?, Option.filter_eq_some_iff, decide_eq_true_eq]
  exact ⟨fun h => ⟨isSigned_of_signed? h.1, h.2⟩, fun h => ⟨signed?_of_isSigned h.signed, h.fits⟩⟩

/-- What is not read is no numeral of any value. -/
theorem numeral?_eq_none_iff {text : List Char} :
    numeral? text = none ↔ ∀ value, ¬ IsNumeral text value := by
  rw [Option.eq_none_iff_forall_ne_some]
  exact forall_congr' fun value => not_congr numeral?_eq_some_iff

/-- A signed number is not empty. -/
theorem IsSigned.ne_nil {text : List Char} {value : Int} (h : IsSigned text value) : text ≠ [] := by
  cases h with
  | unsigned h => exact h.nonempty
  | plus h | minus h => exact List.cons_ne_nil _ _

/-- A number that does not fit is not read. -/
theorem numeral?_of_isSigned {text : List Char} {value : Int} (h : IsSigned text value) :
    numeral? text = if InNumeralRange value then some value else none := by
  rw [numeral?, signed?_of_isSigned h, Option.filter_some]
  simp only [decide_eq_true_eq]

/-! ### Printing -/

/-- The decimal digits of a number are digits. -/
theorem isDigits_toDigits (n : Nat) : IsDigits (Nat.toDigits 10 n) :=
  ⟨Nat.toDigits_ne_nil, fun _ => Nat.isDigit_of_mem_toDigits (by decide) (by decide)⟩

/-- A number that is not negative is written in its digits. -/
theorem toList_toString_ofNat (n : Nat) : (toString (Int.ofNat n)).toList = Nat.toDigits 10 n :=
  Nat.toList_repr

/-- A negative number has a minus in front of its digits. -/
theorem toList_toString_negSucc (n : Nat) :
    (toString (Int.negSucc n)).toList = '-' :: Nat.toDigits 10 (n + 1) := by
  have hprinted : toString (Int.negSucc n) = "-" ++ (n + 1).repr := rfl
  rw [hprinted, String.toList_append, Nat.toList_repr]
  rfl

/-- **Every integer is written as a signed number of its value.** -/
theorem isSigned_toString (value : Int) : IsSigned (toString value).toList value := by
  cases value with
  | ofNat n =>
    have h := IsSigned.unsigned (isDigits_toDigits n)
    rw [Nat.ofDigitChars_ten_toDigits] at h
    rw [toList_toString_ofNat]
    exact h
  | negSucc n =>
    have h := IsSigned.minus (isDigits_toDigits (n + 1))
    rw [Nat.ofDigitChars_ten_toDigits] at h
    rw [toList_toString_negSucc]
    exact h

/-- **A number that fits is read back from the text that it is printed as.** -/
theorem isNumeral_toString {value : Int} (h : InNumeralRange value) :
    IsNumeral (toString value).toList value :=
  ⟨isSigned_toString value, h⟩

/-- The characters of a number that is written. -/
theorem IsSigned.mem {text : List Char} {value : Int} (h : IsSigned text value) {c : Char}
    (hc : c ∈ text) : c = '+' ∨ c = '-' ∨ c.isDigit = true := by
  cases h with
  | unsigned h => exact .inr (.inr (h.digits c hc))
  | plus h =>
    rcases List.mem_cons.1 hc with rfl | hc
    · exact .inl rfl
    · exact .inr (.inr (h.digits c hc))
  | minus h =>
    rcases List.mem_cons.1 hc with rfl | hc
    · exact .inr (.inl rfl)
    · exact .inr (.inr (h.digits c hc))

/-- A digit is no blank. -/
theorem isBlank_of_isDigit {c : Char} (h : c.isDigit = true) : isBlank c = false := by
  have hrange : 48 ≤ c.toNat ∧ c.toNat ≤ 57 := by
    simp only [Char.isDigit, Bool.and_eq_true, decide_eq_true_eq] at h
    exact h
  simp only [isBlank, blankRanges, List.any_cons, List.any_nil, Bool.or_false, Bool.or_eq_false_iff,
    Bool.and_eq_false_iff, decide_eq_false_iff_not]
  omega

/-- A number is written without blanks. -/
theorem IsSigned.isBlank {text : List Char} {value : Int} (h : IsSigned text value) :
    ∀ c ∈ text, isBlank c = false := by
  intro c hc
  rcases h.mem hc with rfl | rfl | hc
  · decide
  · decide
  · exact isBlank_of_isDigit hc

end Text
end DecimalMachine
