/-
# The console as an input source

The console is what is left of the standard input, as lines of bytes. A request for a number prompts
for one line after another until a line, once trimmed, is a numeral. Lines that are none are reported
in the log. The end of the input cancels the request, and so does a line that is no text.
-/

import DecimalMachine.Machine.Basic
import DecimalMachine.Text.Blank
import DecimalMachine.Text.Encoding

namespace DecimalMachine

/-- The lines that are left, without their line feeds. -/
structure Console where
  lines : List (List UInt8)
  deriving DecidableEq

namespace Console

/-- The lines of `current.reverse ++ bytes`, where `current` holds no line feed. -/
def linesFrom (current : List UInt8) : List UInt8 → List (List UInt8)
  | [] => if current.isEmpty then [] else [current.reverse]
  | byte :: rest =>
    if byte = 10 then current.reverse :: linesFrom [] rest else linesFrom (byte :: current) rest

/-- The console of which the bytes are the whole input. -/
def ofBytes (bytes : List UInt8) : Console := ⟨linesFrom [] bytes⟩

/-- What a line of input comes to. -/
inductive Answer where
  | number (value : Int)
  | rejected (text : String)
  | unreadable
  deriving DecidableEq, Repr

/-- The answer that a text gives. -/
def Answer.ofText (text : String) : Answer :=
  let trimmed := Text.trim text.toList
  match Text.numeral? trimmed with
  | some value => number value
  | none => rejected (String.ofList trimmed)

/-- The answer that a line gives. -/
def answer (line : List UInt8) : Answer := (Text.decode? line).elim .unreadable .ofText

/-- The log record of a line that is no numeral. -/
def rejection (text : String) : Record := ⟨.warn, "'" ++ text ++ "' is not an integer"⟩

/-- The log record of a line that is no text. -/
def unreadableRecord : Record := ⟨.error, "Reading input: stream did not contain valid UTF-8"⟩

/-- A request that has left the journal `before` so far. -/
def requestFrom (before : Journal) : List (List UInt8) → Request Console
  | [] => ⟨none, ⟨[]⟩, before ++ [.prompt]⟩
  | line :: rest =>
    match answer line with
    | .number value => ⟨some value, ⟨rest⟩, before ++ [.prompt]⟩
    | .rejected text => requestFrom (before ++ [.prompt, .record (rejection text)]) rest
    | .unreadable => ⟨none, ⟨rest⟩, before ++ [.prompt, .record unreadableRecord]⟩

/-- A request adds no event to the journal that it starts with. -/
theorem events_requestFrom (before : Journal) (lines : List (List UInt8)) :
    (requestFrom before lines).journal.events = before.events := by
  induction lines generalizing before with
  | nil => simp [requestFrom, Journal.events, Emission.event?]
  | cons line rest ih =>
    unfold requestFrom
    split
    · simp [Journal.events, Emission.event?]
    · rw [ih]
      simp [Journal.events, Emission.event?]
    · simp [Journal.events, Emission.event?]

instance : InputSource Console where
  request console := requestFrom [] console.lines
  events_request console := events_requestFrom [] console.lines

end Console

/-- Whether the next step of a machine asks for input. -/
def Machine.awaitsInput (m : Machine ι) : Bool :=
  !m.isStopped && !m.pastEnd &&
    (Instruction.decode? (m.state.memory.get m.state.pc.toNat)).any (·.opcode == .input)

end DecimalMachine
