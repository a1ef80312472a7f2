/-
# Inputs

What a command can read: files, by their names, and the standard input.
-/

import DecimalMachine.Image

namespace DecimalMachine

/-- The bytes of the files, and those of the standard input. -/
structure Inputs where
  file? : String → Option (List UInt8)
  stdin : List UInt8

namespace Inputs

/-- The program in an image file. -/
def image? (i : Inputs) (name : String) : Option Program :=
  (i.file? name).bind fun bytes => (Image.readProgram bytes).toOption

end Inputs
end DecimalMachine
