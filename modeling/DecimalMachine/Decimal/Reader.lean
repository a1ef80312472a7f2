/-
# Reading decimals

A decimal is an optional sign and then one of: `inf` or `infinity` or `nan`, in any ASCII case; or
digits with at most one point among or around them, and an optional exponent. There is at least one
digit before the exponent, and one in it.
-/

import DecimalMachine.Text.Numeral

namespace DecimalMachine
namespace Decimal

/-- Splits a text after the digits at its front. -/
def spanDigits (text : List Char) : List Char × List Char :=
  text.span fun c => (Text.digitValue? c).isSome

/-- The exponent that follows the digits of a decimal; nothing stands for zero. -/
def readExponent? : List Char → Option Int
  | [] => some 0
  | e :: rest => if e = 'e' ∨ e = 'E' then Text.signed? rest else none

/-- The number `digits · 10^exponent`, rounded to the nearest floating-point number. Exponents far
outside the range of these numbers are not raised to a power. -/
def ofScaled (digits : Nat) (exponent : Int) : Float :=
  let magnitude := exponent + (Nat.toDigits 10 digits).length
  if digits = 0 ∨ magnitude < -400 then 0.0
  else if 400 < magnitude then 1.0 / 0.0
  else Float.ofScientific digits (decide (exponent < 0)) exponent.natAbs

/-- Reads a decimal that has no sign. -/
def readUnsigned? (text : List Char) : Option Float :=
  let lower := text.map Char.toLower
  if lower = "inf".toList ∨ lower = "infinity".toList then some (1.0 / 0.0)
  else if lower = "nan".toList then some (0.0 / 0.0)
  else
    let (whole, rest) := spanDigits text
    let (fraction, rest) :=
      match rest with
      | '.' :: rest => spanDigits rest
      | rest => ([], rest)
    match Text.natural? (whole ++ fraction), readExponent? rest with
    | some digits, some exponent => some (ofScaled digits (exponent - (fraction.length : Int)))
    | _, _ => none

/-- Reads a decimal. -/
def read? (text : List Char) : Option Float :=
  match text with
  | '-' :: rest => (readUnsigned? rest).map (-·)
  | '+' :: rest => readUnsigned? rest
  | rest => readUnsigned? rest

end Decimal
end DecimalMachine
