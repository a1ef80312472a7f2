/-
# Encoded text

Files and the standard input are bytes; as text they are read in UTF-8.
-/

namespace DecimalMachine
namespace Text

/-- The text that bytes encode; none if they encode no text. -/
def decode? (bytes : List UInt8) : Option String := String.fromUTF8? ⟨bytes.toArray⟩

end Text
end DecimalMachine
