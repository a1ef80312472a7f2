/-
# Blanks, trimming and tokens

A blank is a character with the Unicode property `White_Space`; there are 25 of them. Trimming
removes blanks at both ends, and the tokens of a text are its maximal runs without a blank.
-/

namespace DecimalMachine
namespace Text

/-- The characters with the Unicode property `White_Space`, as ranges of code points. -/
def blankRanges : List (Nat × Nat) :=
  [(0x09, 0x0D), (0x20, 0x20), (0x85, 0x85), (0xA0, 0xA0), (0x1680, 0x1680), (0x2000, 0x200A),
    (0x2028, 0x2029), (0x202F, 0x202F), (0x205F, 0x205F), (0x3000, 0x3000)]

/-- Whether a character separates tokens. -/
def isBlank (c : Char) : Bool :=
  blankRanges.any fun (low, high) => low ≤ c.toNat && c.toNat ≤ high

/-- What is left once blanks are dropped at both ends. -/
def trim (text : List Char) : List Char :=
  ((text.dropWhile isBlank).reverse.dropWhile isBlank).reverse

/-- The tokens of `current.reverse ++ text`, where `current` holds no blank. -/
def tokensFrom (current : List Char) : List Char → List (List Char)
  | [] => if current.isEmpty then [] else [current.reverse]
  | c :: rest =>
    if isBlank c then
      if current.isEmpty then tokensFrom [] rest else current.reverse :: tokensFrom [] rest
    else tokensFrom (c :: current) rest

/-- The maximal runs of characters that are no blanks, in order. -/
def tokens (text : List Char) : List (List Char) := tokensFrom [] text

/-- An empty text has no tokens. -/
@[simp] theorem tokens_nil : tokens [] = [] := rfl

end Text
end DecimalMachine
