/-
# Requests to the console

A request passes over lines until one of them writes a number. Each pass prompts once, and then finds one of
three things:

| on the console | the pass | what it leaves in the journal |
| --- | --- | --- |
| no line | ends the request with none | a prompt |
| a line that writes a number | ends the request with the number | a prompt |
| any other line | is followed by one more | a prompt and a warning |

So the lines of the input are used up in order, whatever requests they are divided among: the answers are the
numbers of the lines and then none (`Served.values`), and the journal is that of the lines followed by one
prompt for each request that met the end (`Served.journal`). The induction is on the lines that are left; a
rejected line leaves the number of requests as it is, and only a number uses one up.
-/

import DecimalMachine.Console.Screen
import DecimalMachine.Proofs.Console.Lines
import DecimalMachine.Proofs.Machine.Alike

namespace DecimalMachine

/-- What the next requests to a source leave in the journal. -/
def InputSource.asking {ι : Type} [InputSource ι] : (count : Nat) → ι → Journal
  | 0, _ => []
  | count + 1, source => (request source).journal ++ asking count (request source).source

/-- Requests tell no observer. -/
theorem InputSource.events_asking {ι : Type} [InputSource ι] (count : Nat) (source : ι) :
    (asking count source).events = [] := by
  induction count generalizing source with
  | zero => rfl
  | succ count ih => rw [asking, Journal.events_append, events_request, ih, List.append_nil]

/-- A journal without events shows nothing but its prompts on the standard output. -/
theorem Screen.out_displayAll (trace : Bool) (screen : Screen) {journal : Journal}
    (silent : journal.events = []) :
    (screen.displayAll trace journal).out =
      screen.out ++ String.join (List.replicate (journal.count .prompt) promptText) := by
  induction journal generalizing screen with
  | nil => exact (String.append_empty).symm
  | cons emission rest ih =>
    cases emission with
    | event e => nomatch silent
    | record r => exact ih screen silent
    | prompt =>
      have next := ih (screen.writeOut promptText) silent
      rw [List.count_cons_self, List.replicate_succ, String.join_cons, ← String.append_assoc]
      exact next

namespace Console

open InputSource

/-- The number that a line writes, with blanks around it or not. -/
def number? (row : List Char) : Option Int := Text.numeral? (Text.trim row)

/-- What a line leaves in the journal once it was asked for: the prompt, and a warning unless it writes a
number. -/
def told (row : List Char) : Journal :=
  match number? row with
  | some _ => [.prompt]
  | none => [.prompt, .record (rejection (String.ofList (Text.trim row)))]

/-- The lines that are left on a console are answered as these lines of a text. -/
def Holds (console : Console) (rows : List (List Char)) : Prop :=
  console.lines.map answer = rows.map fun row => Answer.ofText (String.ofList row)

/-- **A line writes a number** if it is a numeral once it is trimmed. -/
theorem number?_eq_some_iff {row : List Char} {value : Int} :
    number? row = some value ↔ ∃ kept, Text.Trimmed row kept ∧ Text.IsNumeral kept value := by
  rw [number?, Text.numeral?_eq_some_iff]
  constructor
  · intro numeral
    exact ⟨_, Text.trimmed_trim row, numeral⟩
  · rintro ⟨kept, trimmed, numeral⟩
    rwa [Text.trimmed_iff.1 trimmed] at numeral

/-- A line is answered with the number that it writes, or rejected as it is once it is trimmed. -/
theorem ofText_eq (row : List Char) :
    Answer.ofText (String.ofList row) =
      match number? row with
      | some value => .number value
      | none => .rejected (String.ofList (Text.trim row)) := by
  rw [Answer.ofText, String.toList_ofList]
  rfl

/-! ### One request -/

/-- What a request left before does not matter to what follows. -/
theorem requestFrom_eq (before : Journal) (lines : List (List UInt8)) :
    requestFrom before lines =
      ⟨(requestFrom [] lines).value, (requestFrom [] lines).source,
        before ++ (requestFrom [] lines).journal⟩ := by
  induction lines generalizing before with
  | nil => rfl
  | cons line rest ih =>
    unfold requestFrom
    cases answer line with
    | number value => rfl
    | unreadable => rfl
    | rejected text =>
      let left : Journal := [.prompt, .record (rejection text)]
      show requestFrom (before ++ left) rest =
        ⟨(requestFrom left rest).value, (requestFrom left rest).source,
          before ++ (requestFrom left rest).journal⟩
      rw [ih (before ++ left), ih left, List.append_assoc]

/-- A line that is a number answers a request. -/
theorem request_of_number {line : List UInt8} {rest : List (List UInt8)} {value : Int}
    (h : answer line = .number value) :
    request (⟨line :: rest⟩ : Console) = ⟨some value, ⟨rest⟩, [.prompt]⟩ := by
  show requestFrom [] (line :: rest) = _
  rw [requestFrom, h]
  rfl

/-- A line that is none is rejected, and the next line is asked for. -/
theorem request_of_rejected {line : List UInt8} {rest : List (List UInt8)} {text : String}
    (h : answer line = .rejected text) :
    request (⟨line :: rest⟩ : Console) =
      ⟨(request (⟨rest⟩ : Console)).value, (request (⟨rest⟩ : Console)).source,
        [.prompt, .record (rejection text)] ++ (request (⟨rest⟩ : Console)).journal⟩ := by
  show requestFrom [] (line :: rest) = _
  rw [requestFrom, h]
  exact requestFrom_eq _ rest

/-! ### Passes -/

/-- What one pass of a request comes to. -/
inductive Pass where
  | over (request : Request Console)
  /-- The line was rejected, and the next one is asked for. -/
  | again (rest : Console) (journal : Journal)

/-- One pass: a prompt, and a look at the next line. -/
def pass (console : Console) : Pass :=
  match console.lines with
  | [] => .over ⟨none, ⟨[]⟩, [.prompt]⟩
  | line :: rest =>
    match answer line with
    | .number value => .over ⟨some value, ⟨rest⟩, [.prompt]⟩
    | .rejected text => .again ⟨rest⟩ [.prompt, .record (rejection text)]
    | .unreadable => .over ⟨none, ⟨rest⟩, [.prompt, .record unreadableRecord]⟩

/-- Pass after pass until the request is over; none if it is not over after `limit` passes. -/
def passes : (limit : Nat) → Console → Option (Request Console)
  | 0, _ => none
  | limit + 1, console =>
    match console.pass with
    | .over request => some request
    | .again rest journal =>
      (passes limit rest).map fun request => { request with journal := journal ++ request.journal }

/-- **A request ends**, after at most one pass more than there are lines. -/
theorem passes_eq_request {console : Console} {limit : Nat} (h : console.lines.length < limit) :
    console.passes limit = some (request console) := by
  obtain ⟨lines⟩ := console
  induction lines generalizing limit with
  | nil =>
    obtain ⟨limit, rfl⟩ : ∃ fewer, limit = fewer + 1 := Nat.exists_eq_add_one.2 h
    rfl
  | cons line rest ih =>
    obtain ⟨limit, rfl⟩ : ∃ fewer, limit = fewer + 1 := Nat.exists_eq_add_one.2 (Nat.zero_lt_of_lt h)
    rw [passes]
    cases found : answer line with
    | number value =>
      have one : (⟨line :: rest⟩ : Console).pass = .over ⟨some value, ⟨rest⟩, [.prompt]⟩ := by
        simp only [pass, found]
      rw [one, request_of_number found]
    | rejected text =>
      have one : (⟨line :: rest⟩ : Console).pass =
          .again ⟨rest⟩ [.prompt, .record (rejection text)] := by
        simp only [pass, found]
      have next := ih (Nat.lt_of_succ_lt_succ h)
      rw [one, request_of_rejected found]
      exact congrArg (Option.map _) next
    | unreadable =>
      have one : (⟨line :: rest⟩ : Console).pass =
          .over ⟨none, ⟨rest⟩, [.prompt, .record unreadableRecord]⟩ := by
        simp only [pass, found]
      have ended : request (⟨line :: rest⟩ : Console) =
          ⟨none, ⟨rest⟩, [.prompt, .record unreadableRecord]⟩ := by
        show requestFrom [] (line :: rest) = _
        rw [requestFrom, found]
        rfl
      rw [one, ended]

/-! ### Requests in order -/

/-- What a number of requests makes of the lines on a console: it uses the lines `used` and leaves the lines
`left`. -/
structure Served (rows : List (List Char)) (console : Console) (count : Nat)
    (used left : List (List Char)) : Prop where
  lines : rows = used ++ left
  remaining : (after count console).Holds left
  /-- The numbers that the lines write, one for each request, and then none. -/
  values : answers count console =
    ((rows.filterMap number?).take count).map some ++
      List.replicate (count - (rows.filterMap number?).length) none
  /-- No number is skipped. -/
  numbers : used.filterMap number? = (rows.filterMap number?).take count
  /-- No line is used behind the one that answers the last request. -/
  last : count ≤ (rows.filterMap number?).length →
    ∀ row, used.getLast? = some row → (number? row).isSome = true
  /-- A request that finds no number uses all the lines. -/
  spent : (rows.filterMap number?).length < count → left = []
  journal : asking count console =
    used.flatMap told ++ List.replicate (count - (rows.filterMap number?).length) .prompt

/-- Without lines every request remains without an answer. -/
theorem served_nil (count : Nat) : Served [] ⟨[]⟩ count [] [] := by
  have empty : after count (⟨[]⟩ : Console) = ⟨[]⟩ ∧
      answers count (⟨[]⟩ : Console) = List.replicate count none ∧
      asking count (⟨[]⟩ : Console) = List.replicate count .prompt := by
    induction count with
    | zero => exact ⟨rfl, rfl, rfl⟩
    | succ count ih =>
      obtain ⟨hafter, hanswers, hasking⟩ := ih
      exact ⟨hafter, congrArg (none :: ·) hanswers, congrArg (Emission.prompt :: ·) hasking⟩
  obtain ⟨hafter, hanswers, hasking⟩ := empty
  exact
    { lines := rfl
      remaining := by rw [hafter]; rfl
      values := by rw [hanswers, List.filterMap_nil, List.take_nil]; rfl
      numbers := List.take_nil.symm
      last := nofun
      spent := fun _ => rfl
      journal := hasking }

/-- No request uses a line. -/
theorem served_zero {rows : List (List Char)} {console : Console} (holds : console.Holds rows) :
    Served rows console 0 [] rows where
  lines := rfl
  remaining := holds
  values := by rw [Nat.zero_sub]; rfl
  numbers := rfl
  last := nofun
  spent := nofun
  journal := by rw [Nat.zero_sub]; rfl

variable {row : List Char} {rows used left : List (List Char)} {line : List UInt8}
  {lines : List (List UInt8)} {count : Nat}

/-- A line that writes a number answers one request more. -/
theorem Served.cons_number {value : Int} (h : Served rows ⟨lines⟩ count used left)
    (found : number? row = some value) (given : answer line = .number value) :
    Served (row :: rows) ⟨line :: lines⟩ (count + 1) (row :: used) left := by
  have hrequest : request (⟨line :: lines⟩ : Console) = _ := request_of_number given
  have hnumbers : (row :: rows).filterMap number? = value :: rows.filterMap number? :=
    List.filterMap_cons_some found
  have hused : (row :: used).filterMap number? = value :: used.filterMap number? :=
    List.filterMap_cons_some found
  refine ⟨?_, ?_, ?_, ?_, ?_, ?_, ?_⟩
  · rw [h.lines, List.cons_append]
  · rw [after, hrequest]
    exact h.remaining
  · rw [hnumbers, List.length_cons, Nat.add_sub_add_right, answers, hrequest, h.values]
    rfl
  · rw [hnumbers, hused, h.numbers, List.take_succ_cons]
  · intro enough last hlast
    rw [hnumbers, List.length_cons] at enough
    cases hu : used.getLast? with
    | none =>
      rw [List.getLast?_cons, hu] at hlast
      obtain rfl := Option.some.inj hlast
      rw [Option.getD_none, found]
      rfl
    | some other =>
      rw [List.getLast?_cons, hu] at hlast
      obtain rfl := Option.some.inj hlast
      exact h.last (Nat.le_of_succ_le_succ enough) other hu
  · intro more
    rw [hnumbers, List.length_cons] at more
    exact h.spent (Nat.lt_of_succ_lt_succ more)
  · have htold : told row = [.prompt] := by rw [told, found]
    rw [hnumbers, List.length_cons, Nat.add_sub_add_right, asking, hrequest, h.journal,
      List.flatMap_cons, htold, List.append_assoc]

/-- A line that is rejected answers no request. -/
theorem Served.cons_rejected (h : Served rows ⟨lines⟩ (count + 1) used left)
    (found : number? row = none)
    (given : answer line = .rejected (String.ofList (Text.trim row))) :
    Served (row :: rows) ⟨line :: lines⟩ (count + 1) (row :: used) left := by
  have hrequest : request (⟨line :: lines⟩ : Console) = _ := request_of_rejected given
  have hnumbers : (row :: rows).filterMap number? = rows.filterMap number? :=
    List.filterMap_cons_none found
  have hused : (row :: used).filterMap number? = used.filterMap number? :=
    List.filterMap_cons_none found
  refine ⟨?_, ?_, ?_, ?_, ?_, ?_, ?_⟩
  · rw [h.lines, List.cons_append]
  · rw [after, hrequest]
    exact h.remaining
  · rw [hnumbers, ← h.values, answers, hrequest]
    rfl
  · rw [hnumbers, hused, h.numbers]
  · intro enough last hlast
    rw [hnumbers] at enough
    cases hu : used.getLast? with
    | none =>
      -- Some line answered the first request, so lines were used behind this one.
      rw [List.getLast?_eq_none_iff] at hu
      have none := h.numbers
      rw [hu, List.filterMap_nil] at none
      have short := congrArg List.length none
      rw [List.length_nil, List.length_take] at short
      omega
    | some other =>
      rw [List.getLast?_cons, hu] at hlast
      obtain rfl := Option.some.inj hlast
      exact h.last enough other hu
  · rw [hnumbers]
    exact h.spent
  · have htold : told row = [.prompt, .record (rejection (String.ofList (Text.trim row)))] := by
      rw [told, found]
    have hasking := h.journal
    rw [asking] at hasking
    rw [hnumbers, asking, hrequest, List.flatMap_cons, htold, List.append_assoc, List.append_assoc,
      ← hasking]

/-- **Requests use the lines in order**, whatever number of them each request takes. -/
theorem exists_served {console : Console} (holds : console.Holds rows) (count : Nat) :
    ∃ used left, Served rows console count used left := by
  obtain ⟨lines⟩ := console
  induction rows generalizing lines count with
  | nil =>
    obtain rfl := List.map_eq_nil_iff.1 holds
    exact ⟨[], [], served_nil count⟩
  | cons row rows ih =>
    cases count with
    | zero => exact ⟨[], row :: rows, served_zero holds⟩
    | succ count =>
      obtain ⟨line, lines, rfl, given, others⟩ := List.map_eq_cons_iff.1 holds
      have given := given.trans (ofText_eq row)
      cases found : number? row with
      | some value =>
        rw [found] at given
        obtain ⟨used, left, served⟩ := ih count lines others
        exact ⟨row :: used, left, served.cons_number found given⟩
      | none =>
        rw [found] at given
        obtain ⟨used, left, served⟩ := ih (count + 1) lines others
        exact ⟨row :: used, left, served.cons_rejected found given⟩

/-! ### What is counted -/

/-- One prompt for each line. -/
theorem count_prompt_told (rows : List (List Char)) :
    (rows.flatMap told).count .prompt = rows.length := by
  induction rows with
  | nil => rfl
  | cons row rest ih =>
    have one : (told row).count .prompt = 1 := by
      unfold told
      split <;> rfl
    rw [List.flatMap_cons, List.count_append, one, ih, List.length_cons, Nat.add_comm]

/-- The warnings about lines are those about the lines without a number. -/
theorem records_told (rows : List (List Char)) :
    Journal.records (rows.flatMap told) =
      (rows.filter fun row => (number? row).isNone).map fun row =>
        rejection (String.ofList (Text.trim row)) := by
  induction rows with
  | nil => rfl
  | cons row rest ih =>
    rw [List.flatMap_cons, Journal.records_append, ih, told]
    cases found : number? row with
    | some value =>
      rw [List.filter_cons_of_neg (by rw [found]; exact Bool.false_ne_true)]
      rfl
    | none =>
      rw [List.filter_cons_of_pos (by rw [found]; rfl)]
      rfl

/-- A prompt is no log record. -/
theorem records_replicate_prompt (count : Nat) :
    Journal.records (List.replicate count .prompt) = [] := by
  induction count with
  | zero => rfl
  | succ count ih => exact ih

/-- **One prompt for each line that was used, and for each request that found none.** -/
theorem Served.count_prompt {console : Console} (h : Served rows console count used left) :
    (asking count console).count .prompt = used.length + (answers count console).count none := by
  have some_ne : ∀ numbers : List Int, (numbers.map some).count none = 0 := fun numbers =>
    List.count_eq_zero.2 (by simp)
  rw [h.journal, h.values, List.count_append, List.count_append, count_prompt_told, some_ne,
    List.count_replicate_self, List.count_replicate_self, Nat.zero_add]

/-- **One warning for each line that was used and is no number**, in order. -/
theorem Served.records {console : Console} (h : Served rows console count used left) :
    (asking count console).records =
      (used.filter fun row => (number? row).isNone).map fun row =>
        rejection (String.ofList (Text.trim row)) := by
  rw [h.journal, Journal.records_append, records_told, records_replicate_prompt, List.append_nil]

/-- **Requests to the console read exactly the lines that write numbers.** Whatever text is on the standard
input, the next `count` requests are answered with the numbers of its lines in order, one for each, and then
with none. They use up leading lines, up to the one that answers the last request, or all of them if there
are more requests than numbers. They prompt once for each line that is used and for each request that meets
the end of the input, and they warn once of each line that is used and writes no number. One request more
ends as well, within one pass for each line that is left and a last one. -/
theorem requests_read_lines (text : String) (count : Nat) :
    let rows := Text.lines text.toList
    let numbers := rows.filterMap number?
    let console := ofBytes text.toUTF8.data.toList
    let journal := asking count console
    (∀ row value, number? row = some value ↔
      ∃ kept, Text.Trimmed row kept ∧ Text.IsNumeral kept value) ∧
    answers count console =
      (numbers.take count).map some ++ List.replicate (count - numbers.length) none ∧
    ∃ used left, rows = used ++ left ∧ (after count console).lines.length = left.length ∧
      used.filterMap number? = numbers.take count ∧
      (count ≤ numbers.length → ∀ row, used.getLast? = some row → (number? row).isSome = true) ∧
      (numbers.length < count → left = []) ∧
      journal.count .prompt = used.length + (answers count console).count none ∧
      (∀ trace screen, (Screen.displayAll trace screen journal).out =
        screen.out ++ String.join (List.replicate (journal.count .prompt) "? ")) ∧
      journal.records =
        (used.filter fun row => (number? row).isNone).map (fun row =>
          ⟨.warn, "'" ++ String.ofList (Text.trim row) ++ "' is not an integer"⟩) ∧
      (after count console).passes (left.length + 1) = some (request (after count console)) := by
  intro rows numbers console journal
  have holds : console.Holds rows := map_answer_ofBytes text
  obtain ⟨used, left, served⟩ := exists_served holds count
  have remaining : (after count console).lines.length = left.length := by
    have same := congrArg List.length served.remaining
    rwa [List.length_map, List.length_map] at same
  refine ⟨fun _ _ => number?_eq_some_iff, served.values, used, left, served.lines, remaining,
    served.numbers, served.last, served.spent, served.count_prompt, ?_, served.records, ?_⟩
  · intro trace screen
    exact screen.out_displayAll trace (events_asking count console)
  · exact passes_eq_request (remaining ▸ Nat.lt_succ_self _)

/-- A blank line, a word and a number out of range are passed over, and the last line has no line feed. -/
theorem requests_read_mixed_lines :
    let console := ofBytes "5\n\nx\r\n -7 \n99999999999\n+3".toUTF8.data.toList
    answers 4 console = [some 5, some (-7), some 3, none] ∧ (asking 4 console).count .prompt = 7 := by
  intro console
  obtain ⟨-, values, used, left, lines, -, -, -, spent, prompts, -⟩ :=
    requests_read_lines "5\n\nx\r\n -7 \n99999999999\n+3" 4
  have numbers : (Text.lines "5\n\nx\r\n -7 \n99999999999\n+3".toList).filterMap number? = [5, -7, 3] := by
    decide
  have length : (Text.lines "5\n\nx\r\n -7 \n99999999999\n+3".toList).length = 6 := by decide
  rw [numbers] at values spent
  rw [lines, spent (by decide), List.append_nil] at length
  rw [length, values] at prompts
  exact ⟨values, prompts⟩

end Console
end DecimalMachine
