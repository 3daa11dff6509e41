import Flowchart.Number.Decimal

/-!
The options of the command line. An option is written by its name after two hyphens or by its letter
after one; letters may share a hyphen. A value is attached to its option by an equals sign, or right
after its letter, or it is the next argument, which then must not look like an option. There are no
other arguments.
-/

namespace Flowchart.CommandLine

inductive Switch where
  | auto
  | json
  | list
  deriving DecidableEq, Repr

inductive Setting where
  | program
  | maxSteps
  | delay
  | input
  deriving DecidableEq, Repr

def Switch.name : Switch → String
  | auto => "auto"
  | json => "json"
  | list => "list"

def Setting.name : Setting → String
  | program => "program"
  | maxSteps => "max-steps"
  | delay => "delay-ms"
  | input => "input"

inductive OptionName where
  | switch (option : Switch)
  | setting (option : Setting)
  deriving DecidableEq, Repr

def OptionName.ofName? (name : String) : Option OptionName :=
  match name with
  | "auto" => some (.switch .auto)
  | "json" => some (.switch .json)
  | "list" => some (.switch .list)
  | "program" => some (.setting .program)
  | "max-steps" => some (.setting .maxSteps)
  | "delay-ms" => some (.setting .delay)
  | "input" => some (.setting .input)
  | _ => none

def OptionName.ofLetter? : Char → Option OptionName
  | 'a' => some (.switch .auto)
  | 'l' => some (.switch .list)
  | 'p' => some (.setting .program)
  | _ => none

inductive UsageError where
  | unexpected (argument : String)
  | repeated (name : String)
  | missingValue (name : String)
  | needlessValue (name : String)
  | invalidValue (name value : String)
  deriving DecidableEq, Repr

def UsageError.message : UsageError → String
  | unexpected argument => "unexpected argument '" ++ argument ++ "'"
  | repeated name => "option '--" ++ name ++ "' is given more than once"
  | missingValue name => "option '--" ++ name ++ "' needs a value"
  | needlessValue name => "option '--" ++ name ++ "' takes no value"
  | invalidValue name value => "invalid value '" ++ value ++ "' for option '--" ++ name ++ "'"

structure Given where
  switches : List Switch
  program : Option String
  maxSteps : Option Nat
  delay : Option Nat
  inputs : List String
  deriving DecidableEq, Repr

/-- A count below `2 ^ 64`: decimal digits, perhaps after a plus sign. -/
def readCount? (text : String) : Option Nat :=
  let digits := match text.toList with
    | '+' :: digits => digits
    | digits => digits
  if digits.isEmpty || !digits.all Char.isDigit then none
  else
    let count := Number.digitsValue digits
    if count < UInt64.size then some count else none

def countOf (option : Setting) (text : String) : Except UsageError Nat :=
  match readCount? text with
  | some count => .ok count
  | none => .error (.invalidValue option.name text)

namespace Given

def none : Given := ⟨[], .none, .none, .none, []⟩

def raise (given : Given) (option : Switch) : Except UsageError Given :=
  if option ∈ given.switches then .error (.repeated option.name)
  else .ok { given with switches := option :: given.switches }

def once {α : Type} (option : Setting) (before : Option α) (value : α) :
    Except UsageError (Option α) :=
  if before.isSome then .error (.repeated option.name) else .ok (some value)

def assign (given : Given) (option : Setting) (value : String) : Except UsageError Given :=
  match option with
  | .program => return { given with program := ← once .program given.program value }
  | .maxSteps => do
    let count ← countOf .maxSteps value
    return { given with maxSteps := ← once .maxSteps given.maxSteps count }
  | .delay => return { given with delay := ← once .delay given.delay (← countOf .delay value) }
  | .input => .ok { given with inputs := given.inputs ++ [value] }

end Given

def looksLikeOption (argument : String) : Bool :=
  match argument.toList with
  | '-' :: _ :: _ => true
  | _ => false

def splitValue (cs : List Char) : String × Option String :=
  let name := String.ofList (cs.takeWhile (· != '='))
  match cs.dropWhile (· != '=') with
  | [] => (name, none)
  | _ :: value => (name, some (String.ofList value))

/-- Letters that share a hyphen: the switches among them, up to an option with a value, which ends
them. -/
def readLetters (given : Given) :
    List Char → Except UsageError (Given × Option (Setting × Option String))
  | [] => .ok (given, none)
  | letter :: rest =>
    match OptionName.ofLetter? letter with
    | none => .error (.unexpected (String.ofList ['-', letter]))
    | some (.switch option) => do readLetters (← given.raise option) rest
    | some (.setting option) =>
      match rest with
      | [] => .ok (given, some (option, none))
      | '=' :: value => .ok (given, some (option, some (String.ofList value)))
      | value => .ok (given, some (option, some (String.ofList value)))

def readArgument (given : Given) (argument : String) :
    Except UsageError (Given × Option (Setting × Option String)) :=
  match argument.toList with
  | '-' :: '-' :: long =>
    let (name, value) := splitValue long
    match OptionName.ofName? name, value with
    | none, _ => .error (.unexpected argument)
    | some (.switch option), none => return (← given.raise option, none)
    | some (.switch option), some _ => .error (.needlessValue option.name)
    | some (.setting option), value => .ok (given, some (option, value))
  | '-' :: letter :: letters => readLetters given (letter :: letters)
  | _ => .error (.unexpected argument)

/-- Reads arguments in turn; two hyphens alone end the options. -/
def readArguments (given : Given) : List String → Except UsageError Given
  | [] => .ok given
  | argument :: rest =>
    if argument = "--" then
      match rest with
      | [] => .ok given
      | extra :: _ => .error (.unexpected extra)
    else
      match readArgument given argument with
      | .error error => .error error
      | .ok (given, none) => readArguments given rest
      | .ok (given, some (option, some value)) =>
        match given.assign option value with
        | .error error => .error error
        | .ok given => readArguments given rest
      | .ok (given, some (option, none)) =>
        match rest with
        | [] => .error (.missingValue option.name)
        | value :: rest =>
          if looksLikeOption value then .error (.missingValue option.name)
          else
            match given.assign option value with
            | .error error => .error error
            | .ok given => readArguments given rest

structure Options where
  program : String
  maxSteps : Nat
  auto : Bool
  /-- The pause before a step that is taken without the user, in milliseconds. -/
  delay : Nat
  inputs : List String
  json : Bool
  list : Bool
  deriving DecidableEq, Repr

/-- The options of a command line. The surroundings may set the step limit for want of an option
that does; `fallback` is the limit if they do not. -/
def Options.read (arguments : List String) (surroundings : Option String) (fallback : Nat) :
    Except UsageError Options := do
  let given ← readArguments .none arguments
  let maxSteps ← match given.maxSteps, surroundings with
    | some count, _ => .ok count
    | none, some text => countOf .maxSteps text
    | none, none => .ok fallback
  return {
    program := given.program.getD "sum"
    maxSteps
    auto := given.switches.contains .auto
    delay := given.delay.getD 0
    inputs := given.inputs
    json := given.switches.contains .json
    list := given.switches.contains .list }

end Flowchart.CommandLine
