import Flowchart.CommandLine.Report

/-!
The command line: runs a sample program in conversation with the user.
-/

namespace Flowchart.CommandLine

def speak (said : Said) : IO Unit := do
  IO.print said.output
  (← IO.getStdout).flush
  IO.eprint said.errorOutput

def readLine : IO (List UInt8) := do
  let stdin ← IO.getStdin
  let mut bytes := []
  repeat
    match (← stdin.read 1).data[0]? with
    | none => break
    | some byte =>
      bytes := byte :: bytes
      if byte = newline then break
  return bytes.reverse

def listen : IO (Except String String) := do
  try
    let bytes ← readLine
    if bytes.isEmpty then return .error closedMessage
    return (decodeLine bytes).mapError unreadableMessage
  catch error => return .error (unreadableMessage error.toString)

/-- Waits for so many milliseconds. A wait that is too long for the clock is made in parts. -/
def pause (delay : Nat) : IO Unit := do
  let longest : UInt32 := 0xffffffff
  for _ in [0:delay / longest.toNat] do IO.sleep longest
  IO.sleep (delay % longest.toNat).toUInt32

def hear (delay : Nat) (dialogue : Dialogue) : IO (Except String String) := do
  match dialogue.prompt? with
  | some prompt =>
    speak ⟨prompt, []⟩
    listen
  | none =>
    if !dialogue.isAsked then pause delay
    return .ok ""

def talk (delay : Nat) (dialogue : Dialogue) : IO (Option Session) := do
  if _ : dialogue.isOver then return some dialogue.session
  else
    match ← hear delay dialogue with
    | .error complaint =>
      speak ⟨"", [complaint]⟩
      return none
    | .ok line =>
      speak (dialogue.next line).2
      talk delay (dialogue.next line).1
termination_by dialogue.session.remaining
decreasing_by exact dialogue.remaining_next_lt line (by simpa using ‹¬dialogue.isOver = true›)

def perform (options : Options) : IO Nat := do
  if options.list then
    speak ⟨listing, []⟩
    return 0
  match opening options with
  | .error complaint =>
    speak ⟨"", [complaint]⟩
    return failureCode
  | .ok dialogue =>
    speak ⟨announcement options, []⟩
    match ← talk options.delay dialogue with
    | none => return failureCode
    | some session =>
      let closed := closing options.json session
      speak closed.said
      return closed.exitCode

end Flowchart.CommandLine

open Flowchart Flowchart.CommandLine in
/-- The step limit may also be set by the environment variable `FLOWRUN_MAX_STEPS`. -/
def main (arguments : List String) : IO UInt32 := do
  let surroundings ← IO.getEnv "FLOWRUN_MAX_STEPS"
  match Options.read arguments surroundings defaultLimit with
  | .error error =>
    IO.eprintln ("error: " ++ error.message)
    return usageCode.toUInt32
  | .ok options => return (← perform options).toUInt32
