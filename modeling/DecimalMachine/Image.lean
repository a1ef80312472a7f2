/-
# Image files

A program is kept in a file of 16-bit words, the low byte first: a header of two words and four
words for each entry.

| word | content |
| --- | --- |
| header 0 | `0o1001` |
| header 1 | number of entries |
| entry 0 | address |
| entry 1 | memory word, modulo 65536 |
| entry 2 | source line |
| entry 3 | kind: 0 for an instruction, 1 for plain data |

The mnemonic and the operand of an entry are not in the file; reading takes them from the word.
-/

import DecimalMachine.Bytes
import DecimalMachine.Program

namespace DecimalMachine
namespace Image

/-- The first word of every image file. -/
def magic : Nat := 0o1001

/-- Why a program has no complete image file. -/
inductive WriteError where
  | tooManyEntries
  | lineTooLarge (line : Nat)
  deriving DecidableEq, Repr

/-- The error as it is written in messages. -/
def WriteError.message : WriteError → String
  | tooManyEntries => "too many entries"
  | lineTooLarge line => "line " ++ toString line ++ " too large"

/-- Why a file is no image. -/
inductive ReadError where
  | endOfFile
  | badMagic (found : Nat)
  | addressOutside (address : Nat)
  | wordOutside (word : Int)
  | notAnInstruction (word : Int)
  | unknownKind (kind : Nat)
  deriving DecidableEq, Repr

/-- A number in octal, with its sign of base. -/
def octalText (value : Nat) : String := "0o" ++ String.ofList (Nat.toDigits 8 value)

/-- The error as it is written in messages. -/
def ReadError.message : ReadError → String
  | endOfFile => "failed to fill whole buffer"
  | badMagic found => "bad magic " ++ octalText found
  | addressOutside address => "address " ++ toString address ++ " out of range"
  | wordOutside word => "word " ++ toString word ++ " out of range"
  | notAnInstruction word => "word " ++ toString word ++ " is not an instruction"
  | unknownKind kind => "unknown entry kind " ++ toString kind

/-- The kind word of an entry. -/
def kindOf (e : Entry) : Nat := if e.isData then 1 else 0

/-- The bytes of an entry. -/
def entryBytes (e : Entry) : List UInt8 :=
  Bytes.half e.address ++ Bytes.half (Bytes.unsigned e.word) ++ Bytes.half e.line
    ++ Bytes.half (kindOf e)

/-- What became of writing a program: the bytes that reached the file, and why they end early. -/
structure Written where
  bytes : List UInt8
  failure : Option WriteError
  deriving DecidableEq, Repr

/-- Writes a program. The number of entries is checked before anything is written, the line of an
entry before the entry is written. -/
def write (p : Program) : Written :=
  if p.size < Bytes.halfModulus then
    let complete := p.entries.takeWhile fun e => e.line < Bytes.halfModulus
    let incomplete := p.entries.dropWhile fun e => e.line < Bytes.halfModulus
    { bytes := Bytes.half magic ++ Bytes.half p.size ++ complete.flatMap entryBytes
      failure := incomplete.head?.map fun e => .lineTooLarge e.line }
  else { bytes := [], failure := some .tooManyEntries }

/-- The entry that four words of a file describe. The address is checked first, then the range of
the word, then the kind. -/
def entryOf (address : Nat) (word : Int) (line kind : Nat) : Except ReadError Entry :=
  if ¬ address < memorySize then .error (.addressOutside address)
  else if ¬ InWordRange word then .error (.wordOutside word)
  else if kind = 1 then .ok (Entry.ofData address word line)
  else if kind = 0 then
    match Instruction.decode? word with
    | some i => .ok { Entry.ofInstruction address i line with word := word }
    | none => .error (.notAnInstruction word)
  else .error (.unknownKind kind)

/-- Reads a number of entries; `before` holds the ones already read, the latest first. -/
def readEntries : Nat → List Entry → List UInt8 → Except ReadError (Program × List UInt8)
  | 0, before, bytes => .ok (⟨before.reverse⟩, bytes)
  | count + 1, before, a0 :: a1 :: w0 :: w1 :: l0 :: l1 :: k0 :: k1 :: rest =>
    match entryOf (Bytes.ofHalf a0 a1) (Bytes.signed (Bytes.ofHalf w0 w1)) (Bytes.ofHalf l0 l1)
      (Bytes.ofHalf k0 k1) with
    | .ok e => readEntries count (e :: before) rest
    | .error e => .error e
  | _ + 1, _, _ => .error .endOfFile

/-- Reads a program from the beginning of a file, together with the bytes that follow it. -/
def read : List UInt8 → Except ReadError (Program × List UInt8)
  | m0 :: m1 :: rest =>
    if Bytes.ofHalf m0 m1 = magic then
      match rest with
      | c0 :: c1 :: body => readEntries (Bytes.ofHalf c0 c1) [] body
      | _ => .error .endOfFile
    else .error (.badMagic (Bytes.ofHalf m0 m1))
  | _ => .error .endOfFile

/-- The program at the beginning of a file. -/
def readProgram (bytes : List UInt8) : Except ReadError Program := (read bytes).map Prod.fst

end Image
end DecimalMachine
