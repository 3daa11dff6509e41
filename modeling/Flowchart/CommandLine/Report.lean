import Flowchart.CommandLine.Dialogue

/-!
What a command line comes to: all that is said from the first line to the last, and the exit code.
-/

namespace Flowchart.CommandLine

structure Report where
  said : Said
  exitCode : Nat
  deriving DecidableEq, Repr

def failureCode : Nat := 1

def usageCode : Nat := 2

def listing : String := String.join (Sample.names.map (· ++ "\n"))

def announcement (options : Options) : String :=
  "Running '" ++ options.program ++ "' (max " ++ options.maxSteps.repr ++ " steps)\n"

/-- The conversation that options ask for, or a complaint about their program. -/
def opening (options : Options) : Except String Dialogue :=
  match Sample.ofName? options.program with
  | none =>
    .error ("Unknown program '" ++ options.program ++ "'. Available: "
      ++ ", ".intercalate Sample.names)
  | some definition =>
    match definition.build [] with
    | .error error => .error ("Invalid program: " ++ error.message)
    | .ok graph => .ok ⟨.new graph options.maxSteps, options.auto, options.inputs⟩

def variableLine (name : String) (value : Value) : String :=
  "  " ++ name ++ " = " ++ value.display ++ "\n"

def summary (snapshot : Snapshot) : String :=
  "\n--- Session Summary ---\n"
    ++ "Status:     " ++ snapshot.status ++ "\n"
    ++ "Steps:      " ++ snapshot.steps.repr ++ "\n"
    ++ (match snapshot.failure with
      | some failure => "Error:      " ++ failure.kindName ++ ": " ++ failure.message ++ "\n"
      | none => "")
    ++ "Variables:\n"
    ++ String.join (snapshot.bindings.map fun (name, value) => variableLine name value)
    ++ "\n"

def closing (json : Bool) (session : Session) : Report :=
  let snapshot := session.snapshot
  let text := if json then snapshot.toJson.pretty ++ "\n" else summary snapshot
  ⟨⟨text, []⟩, if snapshot.failure.isSome then failureCode else 0⟩

def report (options : Options) (input : Input) : Report :=
  if options.list then ⟨⟨listing, []⟩, 0⟩
  else
    match opening options with
    | .error complaint => ⟨⟨"", [complaint]⟩, failureCode⟩
    | .ok dialogue =>
      let (said, ending) := dialogue.converse input
      let opened := (Said.mk (announcement options) []).followedBy said
      match ending with
      | none => ⟨opened, failureCode⟩
      | some session =>
        let closed := closing options.json session
        { closed with said := opened.followedBy closed.said }

end Flowchart.CommandLine
