/-
# The shortest decimal of a binary number

A finite floating-point number is `m · 2^q`. The reals that round to it form an interval around it;
the ends belong to the interval if `m` is even. Its shortest decimal is the point of the coarsest
decimal grid that meets the interval: the nearer of the number's two neighbours on that grid, and
the upper one if both are equally near.

All comparisons are made between whole numbers. With `unit = 2^(q - 2)` the number is `4m` units,
the upper end of the interval `4m + 2`, and the lower end `4m - 2`, or `4m - 1` where the numbers
below are twice as dense.
-/

namespace DecimalMachine
namespace Decimal

/-- What the bits of a floating-point number say. -/
inductive Parts where
  | nan
  | infinite (negative : Bool)
  /-- The number `significand · 2^exponent`; `denseBelow` if the next smaller numbers are closer. -/
  | finite (negative : Bool) (significand : Nat) (exponent : Int) (denseBelow : Bool)
  deriving DecidableEq, Repr

/-- The value of the sign bit. -/
def signWeight : Nat := Nat.pow 2 63

/-- The value of the lowest exponent bit, which is that of the leading bit of a significand. -/
def exponentWeight : Nat := Nat.pow 2 52

/-- Reads a sign bit, eleven exponent bits and 52 fraction bits. -/
def Parts.ofBits (bits : Nat) : Parts :=
  let negative := decide (signWeight ≤ bits)
  let exponent := bits / exponentWeight % 2048
  let fraction := bits % exponentWeight
  if exponent = 2047 then
    if fraction = 0 then infinite negative else nan
  else if exponent = 0 then finite negative fraction (-1074) false
  else
    finite negative (exponentWeight + fraction) ((exponent : Int) - 1075)
      (decide (fraction = 0) && decide (1 < exponent))

/-- A decimal `digits · 10^exponent`. -/
structure Scaled where
  digits : Nat
  exponent : Int
  deriving DecidableEq, Repr

/-- An interval of positive fractions with one denominator, and a number inside it. -/
structure Interval where
  low : Nat
  value : Nat
  high : Nat
  denominator : Nat
  closed : Bool
  deriving DecidableEq, Repr

/-- The reals that round to a positive number. -/
def Interval.ofParts (significand : Nat) (exponent : Int) (denseBelow : Bool) : Interval :=
  let up := Nat.pow 2 (exponent - 2).toNat
  { low := (4 * significand - if denseBelow then 1 else 2) * up
    value := 4 * significand * up
    high := (4 * significand + 2) * up
    denominator := Nat.pow 2 (2 - exponent).toNat
    closed := significand % 2 == 0 }

namespace Interval

/-- The same interval measured in units of `10^exponent`. -/
def inUnits (i : Interval) (exponent : Int) : Interval :=
  let down := Nat.pow 10 (-exponent).toNat
  { i with
    low := i.low * down
    value := i.value * down
    high := i.high * down
    denominator := i.denominator * Nat.pow 10 exponent.toNat }

/-- Whether a whole number lies in the interval. -/
def contains (i : Interval) (n : Nat) : Bool :=
  if i.closed then decide (i.low ≤ n * i.denominator) && decide (n * i.denominator ≤ i.high)
  else decide (i.low < n * i.denominator) && decide (n * i.denominator < i.high)

/-- The neighbour of the value among the whole numbers in the interval, if there is one: the nearer
of two, and the upper one of two that are equally near. -/
def nearest? (i : Interval) : Option Nat :=
  let below := i.value / i.denominator
  let above := below + 1
  if i.contains below then
    if i.contains above && decide (above * i.denominator + below * i.denominator ≤ 2 * i.value) then
      some above
    else some below
  else if i.contains above then some above
  else none

/-- The point of the coarsest grid from `10^exponent` on down, for a number of finer grids. -/
def search (i : Interval) (exponent : Int) : Nat → Option Scaled
  | 0 => none
  | finer + 1 =>
    match (i.inUnits exponent).nearest? with
    | some digits => some ⟨digits, exponent⟩
    | none => i.search (exponent - 1) finer

end Interval

/-- The exponent of the coarsest grid that can meet an interval of positive numbers. -/
def coarsestGrid : Int := 309

/-- Number of grids of which the last one holds every number itself. -/
def gridCount : Nat := 1400

/-- The shortest decimal of a positive number. -/
def shortest (significand : Nat) (exponent : Int) (denseBelow : Bool) : Scaled :=
  ((Interval.ofParts significand exponent denseBelow).search coarsestGrid gridCount).getD ⟨0, 0⟩

/-- A decimal without an exponent: zeros are filled in up to the point, on either side of it. -/
def Scaled.text (s : Scaled) : String :=
  let digits := Nat.toDigits 10 s.digits
  let places := (-s.exponent).toNat
  if places = 0 then String.ofList (digits ++ List.replicate s.exponent.toNat '0')
  else if digits.length ≤ places then
    "0." ++ String.ofList (List.replicate (places - digits.length) '0' ++ digits)
  else
    String.ofList (digits.take (digits.length - places)) ++ "."
      ++ String.ofList (digits.drop (digits.length - places))

/-- The sign that stands in front of a number. -/
def signText (negative : Bool) : String := if negative then "-" else ""

def Parts.text : Parts → String
  | nan => "NaN"
  | infinite negative => signText negative ++ "inf"
  | finite negative significand exponent denseBelow =>
    signText negative ++
      if significand = 0 then "0" else (shortest significand exponent denseBelow).text

/-- A floating-point number as the shortest decimal that reads back as the same number, never with
an exponent and without a fraction if it is whole. -/
def text (x : Float) : String := (Parts.ofBits x.toBits.toNat).text

/-! ### Fixed points of the format -/

example : text 10.0 = "10" ∧ text 2500.5 = "2500.5" ∧ text 0.1 = "0.1" := by decide +kernel

example : text 1e21 = "1000000000000000000000" ∧ text 1e-20 = "0.00000000000000000001" := by
  decide +kernel

/-- The number `2^-25` lies halfway between two decimals of its shortest length. -/
example : text 2.98023223876953125e-8 = "0.000000029802322387695313" := by decide +kernel

example : text (-0.0) = "-0" ∧ text (0.0 / 0.0) = "NaN" ∧ text (-1.0 / 0.0) = "-inf" := by
  decide +kernel

end Decimal
end DecimalMachine
