/-
# Decimal numerals

A numeral is an optional sign and one or more decimal digits, with a value that fits in 32 bits;
leading zeros are allowed. Numbers are printed without leading zeros or padded to a width, in
which the sign counts as one character.
-/

import DecimalMachine.Word

namespace DecimalMachine
namespace Text

/-- The value of a decimal digit. -/
def digitValue? (c : Char) : Option Nat :=
  if '0' ≤ c ∧ c ≤ '9' then some (c.toNat - '0'.toNat) else none

/-- Continues the number `value` with the digits that follow. -/
def naturalFrom (value : Nat) : List Char → Option Nat
  | [] => some value
  | c :: rest =>
    match digitValue? c with
    | some digit => naturalFrom (10 * value + digit) rest
    | none => none

/-- The number that a nonempty row of digits writes. -/
def natural? : List Char → Option Nat
  | [] => none
  | digits => naturalFrom 0 digits

/-- The number that an optional sign and a nonempty row of digits write. -/
def signed? : List Char → Option Int
  | '+' :: digits => (natural? digits).map Int.ofNat
  | '-' :: digits => (natural? digits).map fun value => -Int.ofNat value
  | digits => (natural? digits).map Int.ofNat

/-- The range of a signed number of 32 bits. -/
def InNumeralRange (value : Int) : Prop := -2147483648 ≤ value ∧ value ≤ 2147483647

instance (value : Int) : Decidable (InNumeralRange value) :=
  inferInstanceAs (Decidable (_ ∧ _))

/-- Reads a numeral; blanks are not skipped. -/
def numeral? (text : List Char) : Option Int :=
  (signed? text).filter fun value => InNumeralRange value

/-- Fills a text up with `fill` on the left to at least `width` characters. -/
def padLeft (fill : Char) (width : Nat) (text : String) : String :=
  String.ofList (List.replicate (width - text.length) fill) ++ text

/-- A number with at least `width` characters: zeros stand between the sign and the digits. -/
def zeroPadded (width : Nat) (value : Int) : String :=
  if value < 0 then "-" ++ padLeft '0' (width - 1) (toString value.natAbs)
  else padLeft '0' width (toString value.natAbs)

/-- A number with at least `width` characters, filled up with spaces. -/
def spacePadded (width : Nat) (value : Int) : String := padLeft ' ' width (toString value)

/-- An address as it is written in messages and listings. -/
def addressText (address : Nat) : String := zeroPadded 2 (Int.ofNat address)

end Text
end DecimalMachine
