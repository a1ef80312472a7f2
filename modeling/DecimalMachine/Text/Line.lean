/-
# Lines and comments

A line ends with a line feed, or with a carriage return and a line feed; what follows the last
line feed is a line of its own unless it is empty. A comment starts with `//` or with `;` and
goes on to the end of its line.
-/

namespace DecimalMachine
namespace Text

/-- A line without the carriage return that belongs to its end. The line is given backwards. -/
def dropReturn : List Char → List Char
  | '\r' :: rest => rest
  | line => line

/-- The lines of `current.reverse ++ text`, where `current` holds no line feed. -/
def linesFrom (current : List Char) : List Char → List (List Char)
  | [] => if current.isEmpty then [] else [current.reverse]
  | c :: rest =>
    if c = '\n' then (dropReturn current).reverse :: linesFrom [] rest
    else linesFrom (c :: current) rest

/-- The lines of a text, without their ends. -/
def lines (text : List Char) : List (List Char) := linesFrom [] text

/-- What stands before the first comment of a line. -/
def withoutComment : List Char → List Char
  | [] => []
  | ';' :: _ => []
  | '/' :: '/' :: _ => []
  | c :: rest => c :: withoutComment rest

end Text
end DecimalMachine
