/-
# What a tool does

A tool is given a source text or the name of an image, and what its switches say. From these it makes a plan,
and the plan is carried out on a store of files and on the console.

| tool | is given | plans |
| --- | --- | --- |
| assembler | source, output, listing | to write the image of the source |
| disassembler | image | to list the program in the image |
| emulator | image, rate, trace | to run the program in the image |
| interpreter | source, rate, trace | to assemble the source and run it |

Assembly errors are shown on the standard error, one on a line, and nothing is written or run if there are
any. A source or an image that cannot be read, and a file that cannot be written, make a tool fail without a
word.

How arguments are written down, where a source is read from and what a file is, is no matter of a plan. A store
of files is asked for the bytes under a name and told to put bytes under a name. That it gives back what was put
there is `FileStore.ReadsBack`, and nothing else is asked of it.
-/

import DecimalMachine.Assembly.Basic
import DecimalMachine.Command.Inputs
import DecimalMachine.Command.Job
import DecimalMachine.Listing

namespace DecimalMachine

/-- A store of files: the bytes under a name, and what becomes of the store when bytes are put under a name. The
flag tells whether they all were; otherwise the store may be left in any way. -/
structure FileStore (φ : Type) where
  read? : φ → String → Option (List UInt8)
  write : φ → String → List UInt8 → Bool × φ

/-- What was written under a name is read back under it. -/
def FileStore.ReadsBack {φ : Type} (store : FileStore φ) : Prop :=
  ∀ (files : φ) (name : String) (bytes : List UInt8), (store.write files name bytes).1 = true →
    store.read? (store.write files name bytes).2 name = some bytes

namespace Tool

/-- Where the image goes if nothing else is asked for. -/
def defaultOutput : String := "a.out"

/-- What a tool does in the end: it is finished, or it has an image to write to a file and a screen to
show before, or a job to run on the console. -/
inductive Plan where
  | finished (shown : Shown)
  | output (name : String) (image : Image.Written) (screen : Screen)
  | job (job : Job) (console : Console)

/-- A failure that shows nothing. -/
def failed : Plan := .finished ⟨Job.failure, .blank⟩

/-- A failure that shows assembly errors. -/
def failedAssembly (errors : List Assembly.Error) : Plan :=
  .finished ⟨Job.failure, errors.foldl (fun screen e => screen.writeErr e.message) .blank⟩

/-- The line of the assembler's listing for an entry. -/
def entryLine (e : Entry) : String :=
  Text.addressText e.address ++ "\t" ++ Text.spacePadded 4 e.word ++ "\tline " ++ toString e.line
    ++ "\t" ++ e.mnemonic ++ " " ++ toString e.operand

/-- Lines on the standard output. -/
def screenOfLines (lines : List String) : Screen :=
  lines.foldl (fun screen line => screen.writeOut (line ++ "\n")) .blank

/-- The assembler, given the text of its source if it can be read, where to write the image, and whether to show
what it assembled. -/
def planAssembler (contents output : Option String) (listing : Bool) : Plan :=
  match contents with
  | none => failed
  | some source =>
    match (assemble source).result with
    | .error errors => failedAssembly errors
    | .ok p =>
      .output (output.getD defaultOutput) (Image.write p)
        (screenOfLines (if listing then p.entries.map entryLine else []))

/-- The disassembler, given the name of an image. -/
def planDisassembler (i : Inputs) (operand : String) : Plan :=
  match i.image? operand with
  | none => failed
  | some p =>
    match Listing.printed p with
    | .ok lines => .finished ⟨Job.success, screenOfLines lines⟩
    | .error violation => .finished (Job.shownViolation .blank violation)

/-- The emulator, given the name of an image, a rate, and whether to show every event. -/
def planEmulator (i : Inputs) (operand : String) (rate : Float) (trace : Bool) : Plan :=
  match i.image? operand with
  | none => failed
  | some p => .job ⟨p, rate, trace, false⟩ (.ofBytes i.stdin)

/-- The interpreter, given the text of its source if it can be read, what is left of the standard input, a rate,
and whether to show every event. -/
def planInterpreter (contents : Option String) (stdin : List UInt8) (rate : Float) (trace : Bool) :
    Plan :=
  match contents with
  | none => failed
  | some source =>
    match (assemble source).result with
    | .error errors => failedAssembly errors
    | .ok p => .job ⟨p, rate, trace, true⟩ (.ofBytes stdin)

/-- The exit code after an image was written. If writing fails on the way, the file keeps what was
written before. -/
def exitAfter (image : Image.Written) : Nat :=
  if image.failure.isSome then Job.failure else Job.success

/-- What a plan shows and the files after it, if its job ends within a limit of cycles. -/
def Plan.carryOut {φ : Type} (store : FileStore φ) (limit : Nat) (files : φ) :
    Plan → Option (Shown × φ)
  | .finished shown => some (shown, files)
  | .output name image screen =>
    let (whole, after) := store.write files name image.bytes
    some (⟨if whole then exitAfter image else Job.failure, screen⟩, after)
  | .job work console => (work.run limit console).map (·, files)

end Tool
end DecimalMachine
