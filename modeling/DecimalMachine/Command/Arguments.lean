/-
# Command line arguments

Arguments are switches, with or without a value, and operands. A switch is written with its name after
two dashes or with its letter after one, and at most once. The value of a switch follows it as the next
argument, or after an equals sign, or directly after the letter; as an argument of its own it does not begin
with a dash, unless it is nothing else. Behind `--` every argument is an operand, and a single dash is an
operand everywhere.

This is the part of the usual way to write arguments that the tools are run with. What a tool does is a
matter of what was asked for and not of how it was written (`DecimalMachine.Command.Plan`), and the switches
that show help are left out.
-/

namespace DecimalMachine

/-- A switch that a command knows. -/
structure Switch where
  name : String
  letter : Option Char
  takesValue : Bool
  deriving DecidableEq, Repr

/-- The operands, and the switches that were given, with their values. -/
structure Arguments where
  operands : List String
  given : List (String × String)
  deriving DecidableEq, Repr

namespace Arguments

def empty : Arguments := ⟨[], []⟩

def addOperand (a : Arguments) (operand : String) : Arguments :=
  { a with operands := a.operands ++ [operand] }

/-- Whether a switch was given. -/
def has (a : Arguments) (name : String) : Bool := a.given.any fun (given, _) => given == name

/-- The arguments with one switch more; none if it was given before. -/
def addSwitch? (a : Arguments) (name value : String) : Option Arguments :=
  if a.has name then none else some { a with given := a.given ++ [(name, value)] }

/-- The value that was given. -/
def value? (a : Arguments) (name : String) : Option String := a.given.lookup name

/-- A switch as it stands in an argument, with the value that is attached to it. -/
structure Occurrence where
  switch : Switch
  value : Option String

/-- The switch in the rest of an argument after two dashes. -/
def namedSwitch? (switches : List Switch) (body : List Char) : Option Occurrence :=
  let name := String.ofList (body.takeWhile (· ≠ '='))
  let value :=
    match body.dropWhile (· ≠ '=') with
    | _ :: value => some (String.ofList value)
    | [] => none
  (switches.find? (·.name == name)).map (⟨·, value⟩)

/-- The switch in an argument that is one dash, a letter and perhaps a value. -/
def letteredSwitch? (switches : List Switch) (letter : Char) (body : List Char) :
    Option Occurrence :=
  let value :=
    match body with
    | [] => none
    | '=' :: value => some (String.ofList value)
    | value => some (String.ofList value)
  (switches.find? (·.letter == some letter)).map (⟨·, value⟩)

/-- The switch that an argument holds: none if it is an operand, an error if it is unknown. -/
def occurrence (switches : List Switch) (argument : List Char) : Except Unit (Option Occurrence) :=
  let known (o : Option Occurrence) : Except Unit (Option Occurrence) :=
    match o with
    | some o => .ok (some o)
    | none => .error ()
  match argument with
  | '-' :: '-' :: body => known (namedSwitch? switches body)
  | '-' :: letter :: body => known (letteredSwitch? switches letter body)
  | _ => .ok none

/-- Whether an argument can be the value of the switch in front of it. -/
def isValue (argument : String) : Bool := argument = "-" || argument.toList.head? ≠ some '-'

/-- Reads arguments after those in `before`; none if they are not well formed. -/
def readFrom (switches : List Switch) (before : Arguments) : List String → Option Arguments
  | [] => some before
  | "--" :: rest => some { before with operands := before.operands ++ rest }
  | argument :: rest =>
    match occurrence switches argument.toList with
    | .error _ => none
    | .ok none => readFrom switches (before.addOperand argument) rest
    | .ok (some ⟨switch, value⟩) =>
      match switch.takesValue, value with
      | false, some _ => none
      | false, none => do readFrom switches (← before.addSwitch? switch.name "") rest
      | true, some value => do readFrom switches (← before.addSwitch? switch.name value) rest
      | true, none =>
        match rest with
        | [] => none
        | value :: rest =>
          if isValue value then do readFrom switches (← before.addSwitch? switch.name value) rest
          else none

/-- Reads the arguments of a command. -/
def read? (switches : List Switch) (arguments : List String) : Option Arguments :=
  readFrom switches empty arguments

end Arguments
end DecimalMachine
