/-
# Two ways to run a source file

A source file can be assembled into an image that the emulator runs, or it can be given to the interpreter.
The ways differ in what lies between the program and the machine:

| | assembler, then emulator | interpreter |
| --- | --- | --- |
| the program | is written to a file and read back | is handed over |
| without errors | runs at the rate of the emulator | runs at the rate of the interpreter |
| after the run | nothing is shown | state and cycles are shown |
| with errors | they are shown, and no file is written | they are shown, and nothing runs |

At one rate, with one standard input and with the trace on for both or for neither, they agree but for the last
line of the interpreter. An assembled program comes back from its image as it was, with its source lines, so
that both ways end in jobs that differ in the summary alone (`Job.summarised_run`). This is so at every accepted
rate, for a rate that leaves no time between cycles is a violation on both ways.

The tools are taken as what they plan when they are given their arguments, and the image goes through any store
of files that reads back what was written (`FileStore.ReadsBack`).
-/

import DecimalMachine.Command.Plan
import DecimalMachine.Proofs.Assembly.WellFormed
import DecimalMachine.Proofs.Image.RoundTrip

namespace DecimalMachine

/-- What two commands show that ran the same, the second of which says in a last line how the run ended. After a
violation there is no such line. -/
structure Shown.Summarised (plain summary : Shown) : Prop where
  exit : summary.exit = plain.exit
  out : summary.screen.out = plain.screen.out
  err : (∃ state cycles, plain.exit = Job.exitCode state ∧
      summary.screen.err = plain.screen.err ++ Job.summaryLine state cycles ++ "\n") ∨
    plain.exit = Job.abort ∧ summary.screen.err = plain.screen.err

/-! ### Jobs with and without a summary -/

namespace Job

variable (job : Job) (limit : Nat) (console : Console)

/-- The run of a job, from the load of its program on. -/
def started : Controller.Run Console Screen :=
  let loading := ({ Controller.new (.new console) with rate := job.rate } : Controller Console).load
    job.program
  loading.next.run (Screen.listener job.trace) limit (Screen.blank.displayAll job.trace loading.journal)

/-- A job at an accepted rate gets as far as its run if the program fits. -/
theorem run_eq_started (fits : job.program.Loadable) (accepted : Rate.isAccepted job.rate = true) :
    job.run limit console = job.shownRun (job.started limit console) := by
  have set : job.controller console =
      .ok { Controller.new (.new console) with rate := job.rate } := if_pos accepted
  have loaded : (({ Controller.new (.new console) with rate := job.rate } :
      Controller Console).load job.program).result = .ok () := Controller.load_result _ fits
  unfold run
  rw [set]
  dsimp only
  rw [loaded]
  rfl

/-- **A summary is all that a job shows more**, at the same limit of cycles. -/
theorem summarised_run (fits : job.program.Loadable) (accepted : Rate.isAccepted job.rate = true) :
    Option.Rel Shown.Summarised (({ job with summary := false } : Job).run limit console)
      (({ job with summary := true } : Job).run limit console) := by
  have plain : ({ job with summary := false } : Job).run limit console =
      ({ job with summary := false } : Job).shownRun (job.started limit console) :=
    run_eq_started _ limit console fits accepted
  have summary : ({ job with summary := true } : Job).run limit console =
      ({ job with summary := true } : Job).shownRun (job.started limit console) :=
    run_eq_started _ limit console fits accepted
  rw [plain, summary]
  unfold shownRun
  cases (job.started limit console).ending with
  | returned state => exact .some ⟨rfl, rfl, .inl ⟨state, _, rfl, rfl⟩⟩
  | violated violation => exact .some ⟨rfl, rfl, .inr ⟨rfl, rfl⟩⟩
  | unfinished => exact .none

end Job

/-- An assembly with errors results in them. -/
theorem Assembly.result_of_errors {a : Assembly} (h : a.errors ≠ []) : a.result = .error a.errors :=
  if_neg fun ok => h (List.isEmpty_iff.1 ok)

/-- An assembly without errors results in its program. -/
theorem Assembly.result_of_no_errors {a : Assembly} (h : a.errors = []) : a.result = .ok a.program :=
  if_pos (List.isEmpty_iff.2 h)

namespace Tool

/-! ### What the tools are going to do -/

/-- The lines for errors, each with its end. -/
def errorLines (errors : List Assembly.Error) : String :=
  String.join (errors.map fun e => e.message ++ "\n")

/-- The errors of an assembly are written to the screen one after the other, a line each. -/
theorem screen_errors (errors : List Assembly.Error) (screen : Screen) :
    errors.foldl (fun screen e => screen.writeErr e.message) screen =
      ⟨screen.out, screen.err ++ errorLines errors⟩ := by
  induction errors generalizing screen with
  | nil => simp [errorLines]
  | cons e rest ih =>
    rw [List.foldl_cons, ih]
    simp [Screen.writeErr, errorLines, String.append_assoc]

/-- A tool whose source does not assemble writes the errors and fails. -/
theorem failedAssembly_eq (errors : List Assembly.Error) :
    failedAssembly errors = .finished ⟨Job.failure, ⟨"", errorLines errors⟩⟩ := by
  rw [failedAssembly, screen_errors]
  simp [Screen.blank]

variable {text : String} {contents output : Option String} {listing trace : Bool} {rate : Float}
  {stdin : List UInt8}

/-- With errors in the source the assembler shows them and fails. -/
theorem planAssembler_of_errors (errors : (assemble text).errors ≠ []) :
    planAssembler (some text) output listing =
      .finished ⟨Job.failure, ⟨"", errorLines (assemble text).errors⟩⟩ := by
  rw [planAssembler, Assembly.result_of_errors errors]
  exact failedAssembly_eq _

/-- With errors in the source the interpreter shows them and fails. -/
theorem planInterpreter_of_errors (errors : (assemble text).errors ≠ []) :
    planInterpreter (some text) stdin rate trace =
      .finished ⟨Job.failure, ⟨"", errorLines (assemble text).errors⟩⟩ := by
  rw [planInterpreter, Assembly.result_of_errors errors]
  exact failedAssembly_eq _

/-- Without errors the interpreter runs the program, and shows how it ended. -/
theorem planInterpreter_of_no_errors (clean : (assemble text).errors = []) :
    planInterpreter (some text) stdin rate trace =
      .job ⟨(assemble text).program, rate, trace, true⟩ (.ofBytes stdin) := by
  rw [planInterpreter, Assembly.result_of_no_errors clean]

/-- The emulator runs the program that it finds in the image. -/
theorem planEmulator_of_image {i : Inputs} {image : String} {p : Program}
    (found : i.image? image = some p) :
    planEmulator i image rate trace = .job ⟨p, rate, trace, false⟩ (.ofBytes i.stdin) := by
  rw [planEmulator, found]

/-! ### The image on its way -/

section Store

variable {φ : Type} {store : FileStore φ} {files after : φ} {shown : Shown} {limit : Nat}

/-- **An assembler that succeeds** found no errors in the source, and wrote the whole image. -/
theorem written_of_success
    (ran : (planAssembler contents output listing).carryOut store limit files = some (shown, after))
    (success : shown.exit = Job.success) :
    ∃ text, contents = some text ∧ (assemble text).errors = [] ∧
      (Image.write (assemble text).program).failure = none ∧
      store.write files (output.getD defaultOutput) (Image.write (assemble text).program).bytes =
        (true, after) := by
  cases contents with
  | none =>
    cases ran
    cases success
  | some text =>
    by_cases clean : (assemble text).errors = []
    · rw [planAssembler, Assembly.result_of_no_errors clean, Plan.carryOut] at ran
      rcases wrote : store.write files (output.getD defaultOutput)
          (Image.write (assemble text).program).bytes with ⟨whole, left⟩
      rw [wrote] at ran
      cases ran
      -- A file that was not written to its end would be a failure.
      cases whole with
      | false => cases success
      | true =>
        refine ⟨text, rfl, clean, ?_, wrote⟩
        cases failure : (Image.write (assemble text).program).failure with
        | none => rfl
        | some error =>
          simp [exitAfter, failure, Job.failure, Job.success] at success
    · rw [planAssembler_of_errors clean, Plan.carryOut] at ran
      cases ran
      cases success

/-- The emulator finds in the image what the assembler made of the source. -/
theorem image_of_written (back : store.ReadsBack) {image : String}
    (complete : (Image.write (assemble text).program).failure = none)
    (wrote : store.write files image (Image.write (assemble text).program).bytes = (true, after)) :
    Inputs.image? ⟨store.read? after, stdin⟩ image = some (assemble text).program := by
  have bytes : store.read? after image = some (Image.write (assemble text).program).bytes := by
    have read := back files image (Image.write (assemble text).program).bytes
    rw [wrote] at read
    exact read rfl
  unfold Inputs.image?
  dsimp only
  rw [bytes, Option.bind_some, Image.readProgram, Image.read_write_assemble complete]
  rfl

end Store

/-- Jobs leave the files alone. -/
theorem rel_carryOut {φ : Type} {plain summary : Option Shown}
    (h : Option.Rel Shown.Summarised plain summary) (after there : φ) :
    Option.Rel (fun emulated interpreted => emulated.1.Summarised interpreted.1 ∧
        emulated.2 = after ∧ interpreted.2 = there)
      (plain.map (·, after)) (summary.map (·, there)) := by
  cases h with
  | some shown => exact .some ⟨shown, rfl, rfl⟩
  | none => exact .none

/-! ### Both ways -/

/-- **The two ways to run a source agree.** Assembler and interpreter are given the same source, whatever can be
read of it, emulator and interpreter the same standard input, the same accepted rate and the same setting of the
trace. The image goes through a store that reads back what was written, and is found there in the files as the
assembler left them; the interpreter works on any files.

* If the assembler succeeds, the emulator and the interpreter end within the same limits of cycles. They show the
  same on the standard output and exit with the same code, and the standard error differs by the last line of the
  interpreter alone.
* If there are errors in the source, the assembler and the interpreter show the same lines for them, in
  the order of the errors, and fail. No file is written, and the interpreter has nothing to run. -/
theorem toolchains_agree {φ : Type} (store : FileStore φ) (back : store.ReadsBack)
    (contents output : Option String) (listing trace : Bool) {rate : Float}
    (accepted : Rate.isAccepted rate = true) (here there : φ) (stdin : List UInt8) :
    let assembler := planAssembler contents output listing
    let interpreter := planInterpreter contents stdin rate trace
    (∀ enough shown after, assembler.carryOut store enough here = some (shown, after) →
      shown.exit = Job.success → ∀ limit,
        let emulator := planEmulator ⟨store.read? after, stdin⟩ (output.getD defaultOutput) rate trace
        Option.Rel (fun emulated interpreted => emulated.1.Summarised interpreted.1 ∧
            emulated.2 = after ∧ interpreted.2 = there)
          (emulator.carryOut store limit after) (interpreter.carryOut store limit there)) ∧
    ∀ text, contents = some text → (assemble text).errors ≠ [] →
      let shown : Shown := ⟨Job.failure, ⟨"", errorLines (assemble text).errors⟩⟩
      (∀ limit, assembler.carryOut store limit here = some (shown, here)) ∧
        interpreter = .finished shown ∧
        ∀ limit, interpreter.carryOut store limit there = some (shown, there) := by
  intro assembler interpreter
  constructor
  · intro enough shown after ran success limit emulator
    obtain ⟨text, rfl, clean, complete, wrote⟩ := written_of_success ran success
    have emulating : emulator = .job ⟨(assemble text).program, rate, trace, false⟩ (.ofBytes stdin) :=
      planEmulator_of_image (image_of_written back complete wrote)
    have interpreting : interpreter =
        .job ⟨(assemble text).program, rate, trace, true⟩ (.ofBytes stdin) :=
      planInterpreter_of_no_errors clean
    rw [emulating, interpreting]
    have agree := Job.summarised_run ⟨(assemble text).program, rate, trace, true⟩ limit
      (.ofBytes stdin) (loadable_assemble text) accepted
    exact rel_carryOut agree after there
  · rintro text rfl errors shown
    have assembling : assembler = .finished shown := planAssembler_of_errors errors
    have interpreting : interpreter = .finished shown := planInterpreter_of_errors errors
    rw [assembling, interpreting]
    exact ⟨fun _ => rfl, rfl, fun _ => rfl⟩

/-- Files by their names. What was written last comes first. -/
def namedFiles : FileStore (List (String × List UInt8)) where
  read? files name := files.lookup name
  write files name bytes := (true, (name, bytes) :: files)

/-- Named files read back what was written. -/
theorem readsBack_namedFiles : namedFiles.ReadsBack := by
  intro files name bytes _
  exact List.lookup_cons_self

/-- A program that puts out what it reads. -/
def echoSource : String := "IN\nOUT\nHLT"

/-- At the standard rate of the interpreter both ways prompt for the 7 and put it out. -/
theorem toolchains_agree_echo :
    namedFiles.ReadsBack ∧ Rate.isAccepted Rate.standard = true ∧ ∃ shown after,
      (planAssembler (some echoSource) (some "echo.bin") false).carryOut namedFiles 0 [] =
          some (shown, after) ∧
        shown.exit = Job.success ∧ ∃ emulated interpreted,
          (planEmulator ⟨namedFiles.read? after, [55, 10]⟩ "echo.bin" Rate.standard false).carryOut
              namedFiles 3 after = some emulated ∧
          (planInterpreter (some echoSource) [55, 10] Rate.standard false).carryOut
              namedFiles 3 [] = some interpreted ∧
          emulated.1.Summarised interpreted.1 ∧
          interpreted.1 = ⟨Job.success, ⟨"? 7\n", "Halted after 3 cycles\n"⟩⟩ := by
  have accepted : Rate.isAccepted Rate.standard = true := by decide +kernel
  have exits : ((planAssembler (some echoSource) (some "echo.bin") false).carryOut namedFiles 0
      []).map (·.1.exit) = some Job.success := by decide +kernel
  obtain ⟨⟨shown, after⟩, ran, success⟩ := Option.map_eq_some_iff.1 exits
  have shows : ((planInterpreter (some echoSource) [55, 10] Rate.standard false).carryOut
      namedFiles 3 []).map (·.1) =
        some ⟨Job.success, ⟨"? 7\n", "Halted after 3 cycles\n"⟩⟩ := by decide +kernel
  obtain ⟨interpreted, ended, screen⟩ := Option.map_eq_some_iff.1 shows
  have agree := (toolchains_agree namedFiles readsBack_namedFiles (some echoSource)
    (some "echo.bin") false false accepted [] [] [55, 10]).1 0 shown after ran success 3
  rw [ended] at agree
  dsimp only [Option.getD] at agree
  refine ⟨readsBack_namedFiles, accepted, shown, after, ran, success, ?_⟩
  cases emulated : (planEmulator ⟨namedFiles.read? after, [55, 10]⟩ "echo.bin" Rate.standard
      false).carryOut namedFiles 3 after with
  | none =>
    rw [emulated] at agree
    cases agree
  | some plain =>
    rw [emulated] at agree
    cases agree with
    | some related => exact ⟨plain, interpreted, rfl, ended, related.1, screen⟩

end Tool
end DecimalMachine
