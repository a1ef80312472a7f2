/-
# Where a program comes from

A program is assembled from a source text, given as plain words or as a table of entries, or read
from an image file.
-/

import DecimalMachine.Assembly.Basic
import DecimalMachine.Image

namespace DecimalMachine

/-- What a program is made from. -/
inductive Source where
  /-- The words of a source text that assembled cleanly. -/
  | text (source : String)
  | words (words : List Int)
  | entries (entries : List Entry)
  | image (bytes : List UInt8)

namespace Source

/-- The program of a source, unless its image file cannot be read. -/
def program : Source → Except Image.ReadError Program
  | .text source => .ok (assemble source).program
  | .words ws => .ok (.ofWords ws)
  | .entries table => .ok ⟨table⟩
  | .image bytes => Image.readProgram bytes

/-- The log records that making the program leaves. -/
def log : Source → List Record
  | .text source => (assemble source).log
  | _ => []

end Source
end DecimalMachine
