/-
# The command line

The first argument names a tool, the others are its arguments. What a tool does is decided by
`Tool.plan?`; here files and streams are read and written, and a job is run at its rate. A prompt
appears before its line is read, so the lines that a step will ask for are read just before the step.
-/

import DecimalMachine.Command.Tool

namespace DecimalMachine
namespace CommandLine

/-- The tools and the names that they are started by. -/
def toolNames : List (String × Tool) :=
  [("assemble", .assembler), ("disassemble", .disassembler), ("emulate", .emulator),
    ("interpret", .interpreter)]

/-- What is shown if no tool was named. -/
def usage : String := "usage: (assemble | disassemble | emulate | interpret) FILE [switches]"

/-- The exit code after arguments that are not well formed. -/
def misuse : UInt32 := 2

/-- Every byte of the standard input. -/
def readStdin : IO (List UInt8) := do
  let stdin ← IO.getStdin
  let mut bytes := ByteArray.empty
  let mut reading := true
  while reading do
    let chunk ← stdin.read 65536
    bytes := bytes ++ chunk
    reading := !chunk.isEmpty
  return bytes.toList

/-- What a tool can read, as far as its operands name it. -/
def readInputs (tool : Tool) (operands : List String) : IO Inputs := do
  if tool.readsSource && operands.contains Inputs.stdinName then
    return ⟨fun _ => none, ← readStdin⟩
  let mut files : List (String × List UInt8) := []
  for path in operands do
    try
      files := (path, (← IO.FS.readBinFile path).toList) :: files
    catch _ => pure ()
  return ⟨fun path => files.lookup path, []⟩

/-- Prints what was written to a screen. -/
def printScreen (screen : Screen) : IO Unit := do
  let out ← IO.getStdout
  out.putStr screen.out
  out.flush
  let err ← IO.getStderr
  err.putStr screen.err
  err.flush

/-- The bytes of the next line of the standard input, without its line feed; none at the end of the
input. -/
def readLine : IO (Option (List UInt8)) := do
  let stdin ← IO.getStdin
  let mut bytes : Array UInt8 := #[]
  let mut reading := true
  let mut any := false
  while reading do
    let byte := (← stdin.read 1).toList
    any := any || !byte.isEmpty
    if byte = [] ∨ byte = [10] then reading := false
    else bytes := bytes ++ byte
  return if any then some bytes.toList else none

/-- Reads lines, each after a prompt, until one answers a request for a number. -/
def readAnswer : IO Console := do
  let mut lines : Array (List UInt8) := #[]
  let mut asking := true
  while asking do
    printScreen (Screen.blank.writeOut Screen.promptText)
    match ← readLine with
    | none => asking := false
    | some line =>
      lines := lines.push line
      match Console.answer line with
      | .rejected _ => pure ()
      | _ => asking := false
  return ⟨lines.toList⟩

/-- Prints a journal but for its prompts, which were printed before. -/
def printJournal (trace : Bool) (journal : Journal) : IO Unit :=
  printScreen (Screen.blank.displayAll trace (journal.filter (· ≠ .prompt)))

/-- Runs a loaded controller at the rate of its job. -/
def runJob (job : Job) (loaded : Controller Console) : IO Shown := do
  let started := loaded.start
  printJournal job.trace started.journal
  if !Rate.hasDuration job.rate then return Job.shownViolation .blank .intervalTooLong
  let interval := (Rate.interval job.rate * 1000.0).toUInt32
  let mut c := started.next
  let mut going := true
  while going do
    if c.machine.awaitsInput then
      c := { c with machine := c.machine.setInput (← readAnswer) }
    let turn := c.cycle
    printJournal job.trace turn.journal
    c := turn.next
    match turn.result with
    | .error violation => return Job.shownViolation .blank violation
    | .ok false => going := false
    | .ok true =>
      if !Rate.hasDeadline job.rate then return Job.shownViolation .blank .deadlineTooLate
      IO.sleep interval
  let finished := c.finish
  printJournal job.trace finished.journal
  return job.shownReturn .blank finished.next.runState finished.next.cycles

/-- Loads the program of a job and runs it. -/
def startJob (job : Job) (console : Console) : IO Shown :=
  match job.controller console with
  | .error _ => return ⟨Job.failure, .blank⟩
  | .ok controller => do
    let loading := controller.load job.program
    printJournal job.trace loading.journal
    match loading.result with
    | .ok _ => runJob job loading.next
    | .error e => return ⟨Job.abort, Screen.blank.writeErr e.message⟩

/-- Writes an image to a file. -/
def writeImage (path : String) (image : Image.Written) : IO Nat := do
  try
    IO.FS.writeBinFile path ⟨image.bytes.toArray⟩
    return Tool.exitAfter image
  catch _ => return Job.failure

/-- Runs a tool on the files of the working directory and the standard streams. -/
def runTool (tool : Tool) (arguments : List String) : IO UInt32 := do
  let operands := ((Arguments.read? tool.switches arguments).elim [] Arguments.operands)
  match tool.plan? (← readInputs tool operands) arguments with
  | none => IO.eprintln usage; return misuse
  | some (.finished shown) =>
    printScreen shown.screen
    return shown.exit.toUInt32
  | some (.output path image screen) =>
    printScreen screen
    return (← writeImage path image).toUInt32
  | some (.job job console) =>
    let shown ← startJob job console
    printScreen shown.screen
    return shown.exit.toUInt32

end CommandLine
end DecimalMachine

open DecimalMachine in
/-- Runs the tool that the first argument names. -/
def main (arguments : List String) : IO UInt32 :=
  match arguments with
  | name :: rest =>
    match CommandLine.toolNames.lookup name with
    | some tool => CommandLine.runTool tool rest
    | none => do IO.eprintln CommandLine.usage; return CommandLine.misuse
  | [] => do IO.eprintln CommandLine.usage; return CommandLine.misuse
