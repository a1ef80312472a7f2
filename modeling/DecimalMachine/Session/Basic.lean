/-
# Sessions

A session drives a rig command by command, with observers that come and go. Every command yields a
report: the reply to the command, the registers and flags, how the machine stopped, and what changed
since the report before.
-/

import DecimalMachine.Audience
import DecimalMachine.Session.Rig
import DecimalMachine.Session.Source
import DecimalMachine.Session.Watch

namespace DecimalMachine
namespace Session

/-- What can be asked of a session. -/
inductive Command where
  | load (source : Source)
  | step (count : Nat)
  | reset
  /-- Asks whether control has left the program, and whether the machine is stopped. -/
  | pastEnd
  /-- Asks for the loaded program. -/
  | program
  | pushInput (values : List Int)
  /-- Replaces the queue and connects the machine to the new one. -/
  | newInput (values : List Int)
  | noInput
  /-- Asks whether the queue is empty. -/
  | inputEmpty
  /-- Subscribes a further event log; the reply is its number. -/
  | subscribe
  | snapshot (log : Nat)
  | take (log : Nat)
  | outputs (log : Nat)
  /-- Subscribes a new channel in place of the one before. -/
  | openChannel
  | receive
  | dropChannel
  /-- Runs a bare machine until it stops. -/
  | runMachine
  /-- Runs a bare machine for a number of steps at most. -/
  | runLimited (limit : Nat)
  | pokeRegister (register : Register) (value : Int)
  | pokeMemory (address : Nat) (value : Int)
  | peekMemory (address : Nat)
  | pokeFlags (flags : Flags)
  /-- Zeroes the state of a bare machine; program and stop stay. -/
  | zeroState
  /-- Asks whether the state is that of a new machine. -/
  | isZero
  | setRate (rate : Float)
  | pause
  /-- A controlled run; the reply tells what was seen of it if `watch` is set. -/
  | run (pauseOn : List String) (limit : Nat) (watch : Bool)

/-- What a command comes to. -/
inductive Reply where
  | done
  | flag (value : Bool)
  | flags (values : List Bool)
  | number (value : Int)
  | numbers (values : List Int)
  | steps (results : List (Except ControlError Bool))
  | program (p : Program)
  | events (events : List Event)
  /-- How a controlled run ended. -/
  | ran (ending : Controller.RunEnding)
  /-- How a controlled run ended, and what was seen of it before it did. -/
  | watched (ending : Controller.RunEnding) (seen : List (Event × Bool))
  | refused (error : ControlError)
  | unreadable (error : Image.ReadError)
  /-- The run of a bare machine was still going on when the session gave up on it. -/
  | unfinished
  /-- The rig has no such command. -/
  | unsupported

/-- What a controller shows of itself. -/
structure Status where
  runState : RunState
  running : Bool
  cycles : Nat
  rate : Float

/-- What is shown after a command: its reply, and what changed. -/
structure Report where
  reply : Reply
  registers : Registers
  flags : Flags
  /-- The cells that differ from the report before, by address. -/
  changed : List (Nat × Int)
  stop : Option Stop
  /-- The events since the report before. -/
  events : List Event
  /-- The log records of the command. -/
  records : List Record
  /-- Of a controlled machine only. -/
  status : Option Status

end Session

/-- A rig, its audience, and what was reported of it. -/
structure Session where
  rig : Rig Feed
  audience : Audience
  /-- The recorders that the logs are, in the order in which they were subscribed. -/
  logs : Array Nat
  /-- The recorder that the channel is, if one was opened. -/
  channel : Option Nat
  /-- Memory as the last report showed it. -/
  reported : Memory

namespace Session

/-- A session at its start. -/
def new (rig : Rig Feed) : Session := ⟨rig, .empty, #[], none, .zero⟩

/-- A session with a bare machine. -/
def onMachine (feed : Feed) : Session := new (.bare (.new feed))

/-- A session with a controlled machine, at the standard rate unless another one is asked for. -/
def onController (feed : Feed) (rate : Option Float) : Except ControlError Session :=
  let controller := Controller.new (.new feed)
  match rate with
  | none => .ok (new (.controlled controller))
  | some rate => (controller.setRate rate).map fun controller => new (.controlled controller)

/-- Number of steps after which a session gives up on a run. -/
def patience : Nat := 1000000000

/-- The reply to a command that either succeeds or is refused. -/
def Reply.ofResult : Except ControlError Unit → Reply
  | .ok _ => .done
  | .error error => .refused error

/-- What a command does to the rig. -/
abbrev Action := Turn (Rig Feed) Reply

/-- A reply that leaves everything as it is. -/
def answer (rig : Rig Feed) (reply : Reply) : Action := ⟨rig, [], reply⟩

def loadSource (rig : Rig Feed) (source : Source) : Action :=
  let log : Journal := source.log.map .record
  match source.program with
  | .error error => ⟨rig, log, .unreadable error⟩
  | .ok p =>
    let turn := rig.load p
    ⟨turn.next, log ++ turn.journal, .ofResult turn.result⟩

/-- A run of a bare machine. -/
def runMachine (machine : Machine Feed) (limit : Nat) (reply : Machine.Run Feed → Reply) : Action :=
  let run := machine.run limit
  { next := .bare run.machine
    journal := run.journal.toList
    result :=
      match run.ending with
      | .violated violation => .refused (.violated violation)
      | _ => reply run }

/-- Commands that only a bare machine has. -/
def performBare (machine : Machine Feed) : Command → Action
  | .runMachine =>
    runMachine machine patience fun run => if run.ending = .limit then .unfinished else .done
  | .runLimited limit => runMachine machine limit fun run => .number run.steps
  | .pokeRegister register value =>
    let state := machine.state.setRegister register value
    ⟨.bare (machine.setState state), [.record (Progress.registerRecord register value)],
      .numbers [state.pc, state.ac]⟩
  | .pokeMemory address value =>
    let turn := machine.state.memory.store address value
    ⟨.bare (machine.setState { machine.state with memory := turn.next }), turn.journal,
      .ofResult (turn.result.mapError .violated)⟩
  | .peekMemory address =>
    match machine.state.memory.read address with
    | .ok value => answer (.bare machine) (.number value)
    | .error violation => answer (.bare machine) (.refused (.violated violation))
  | .pokeFlags flags => answer (.bare (machine.setState (machine.state.setFlags flags))) .done
  | .zeroState => answer (.bare (machine.setState .zero)) .done
  | .isZero => answer (.bare machine) (.flag (machine.state == .zero))
  | _ => answer (.bare machine) .unsupported

/-- A controlled run under a watch. What was seen is told however the run ended. -/
def runWatched (controller : Controller Feed) (watch : Watch) (watching : Bool) : Action :=
  let run := controller.run Watch.listener patience watch
  { next := .controlled run.controller
    journal := run.listener.journal.toList
    result := if watching then .watched run.ending run.listener.seen.toList else .ran run.ending }

/-- Commands that only a controlled machine has. -/
def performControlled (controller : Controller Feed) : Command → Action
  | .setRate rate =>
    match controller.setRate rate with
    | .ok controller => answer (.controlled controller) .done
    | .error error => answer (.controlled controller) (.refused error)
  | .pause => answer (.controlled controller.pause) .done
  | .run pauseOn limit watch => runWatched controller (.new pauseOn limit) watch
  | _ => answer (.controlled controller) .unsupported

/-- What a command does to the rig, whatever the observers of the session are. -/
def perform (rig : Rig Feed) : Command → Action
  | .load source => loadSource rig source
  | .step count =>
    let turn := rig.steps count
    ⟨turn.next, turn.journal, .steps turn.result⟩
  | .reset =>
    let turn := rig.reset
    ⟨turn.next, turn.journal, .ofResult turn.result⟩
  | .pastEnd => answer rig (.flags [rig.machine.pastEnd, rig.machine.isStopped])
  | .program => answer rig (.program rig.machine.program)
  | .pushInput values =>
    let rig := rig.withFeed (·.push values)
    answer rig (.flag rig.feed.isEmpty)
  | .newInput values => answer (rig.withFeed fun _ => .ofList values) .done
  | .noInput => answer (rig.withFeed Feed.disconnect) .done
  | .inputEmpty => answer rig (.flag rig.feed.isEmpty)
  | command =>
    match rig with
    | .bare machine => performBare machine command
    | .controlled controller => performControlled controller command

/-- Adds a recorder and subscribes it. -/
def join (s : Session) (r : Recorder) : Session :=
  { s with audience := (s.audience.add r).subscribe s.audience.recorders.size }

/-- Uses a recorder, if there is one. -/
def consult (s : Session) (recorder : Option Nat) (u : Recorder.Use) : Session × Recorder.Answer :=
  match recorder with
  | none => (s, .nothing)
  | some number =>
    let used := s.audience.use number u
    ({ s with audience := used.1 }, used.2)

/-- Commands about the observers of a session; none if the command is not about them. -/
def observersReply? (s : Session) : Command → Option (Session × Reply)
  | .subscribe =>
    some ({ s.join (.log .new) with logs := s.logs.push s.audience.recorders.size },
      .number s.logs.size)
  | .snapshot log =>
    let shown := s.consult s.logs[log]? .snapshot
    some (shown.1, .events shown.2.events)
  | .outputs log =>
    let shown := s.consult s.logs[log]? .outputs
    some (shown.1, .numbers shown.2.values)
  | .take log =>
    let taken := s.consult s.logs[log]? .take
    some (taken.1, .events taken.2.events)
  | .openChannel =>
    let s := (s.consult s.channel .drop).1
    some ({ s.join (.channel .new) with channel := some s.audience.recorders.size }, .done)
  | .receive =>
    let received := s.consult s.channel .drain
    some (received.1,
      match received.2 with
      | .given events => .events events
      | _ => .done)
  | .dropChannel => some ((s.consult s.channel .drop).1, .done)
  | _ => none

/-- Hands the events of a command to every observer. -/
def record (s : Session) (events : List Event) : Session :=
  { s with audience := s.audience.emitAll events }

/-- The cells in which two memories differ, with their values in the second. -/
def changedCells (before after : Memory) : List (Nat × Int) :=
  ((List.range memorySize).filter fun address => before.get address ≠ after.get address).map
    fun address => (address, after.get address)

/-- What a rig shows of its controller. -/
def status? : Rig Feed → Option Status
  | .bare _ => none
  | .controlled c => some ⟨c.runState, c.running, c.cycles, c.rate⟩

/-- The report on a command that left a journal. -/
def report (s : Session) (journal : Journal) (reply : Reply) : Session × Report :=
  let machine := s.rig.machine
  ({ s with reported := machine.state.memory },
    { reply := reply
      registers := machine.state.registers
      flags := machine.state.flags
      changed := changedCells s.reported machine.state.memory
      stop := machine.stop
      events := journal.events
      records := journal.records
      status := status? s.rig })

/-- Executes a command. -/
def execute (s : Session) (command : Command) : Session × Report :=
  match s.observersReply? command with
  | some (s, reply) => s.report [] reply
  | none =>
    let action := perform s.rig command
    ({ s with rig := action.next }.record action.journal.events).report action.journal action.result

/-- Executes commands in order. -/
def executeAll (s : Session) : List Command → List Report
  | [] => []
  | command :: rest =>
    let (s, report) := s.execute command
    report :: s.executeAll rest

end Session
end DecimalMachine
