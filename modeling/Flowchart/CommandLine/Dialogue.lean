import Flowchart.CommandLine.Input
import Flowchart.CommandLine.Options
import Flowchart.Sample
import Flowchart.Session.Progress
import Flowchart.Session.Snapshot

/-!
The conversation of the command line: a sample is run step by step, with a line from the user before
each step and for each question, unless steps are taken without the user or answers were given
beforehand.
-/

namespace Flowchart.CommandLine

structure Said where
  output : String
  complaints : List String
  deriving DecidableEq, Repr

namespace Said

def nothing : Said := ⟨"", []⟩

def followedBy (first second : Said) : Said :=
  ⟨first.output ++ second.output, first.complaints ++ second.complaints⟩

def errorOutput (said : Said) : String :=
  String.join (said.complaints.map fun complaint => "\nError: " ++ complaint ++ "\n")

end Said

structure Dialogue where
  session : Session
  /-- Steps are taken without the user. -/
  auto : Bool
  /-- The answers given beforehand that are not used yet. -/
  scripted : List String

def closedMessage : String := "stdin closed while the program was running"

def unreadableMessage (fault : String) : String := "Failed to read stdin: " ++ fault

def Input.complaint (input : Input) : String :=
  match input.fault with
  | none => closedMessage
  | some fault => unreadableMessage fault

namespace Dialogue

def isOver (dialogue : Dialogue) : Bool := dialogue.session.phase.isFinished

def isAsked (dialogue : Dialogue) : Bool := dialogue.session.phase.question?.isSome

def prompt? (dialogue : Dialogue) : Option String :=
  if dialogue.isAsked then
    if dialogue.scripted.isEmpty then some "> input: " else none
  else if dialogue.auto then none
  else some "> Enter to step: "

def echo (line : String) : String := "  | " ++ line ++ "\n"

def remark : Outcome → Said
  | .branched node outcome _ fallback _ reason =>
    ⟨"  node " ++ node.repr ++ " -> " ++ (Value.bool outcome).display ++ ": " ++ reason
        ++ (if fallback then " (no matching edge, took first)" else "") ++ "\n", []⟩
  | .failed failure => ⟨"", [failure.message]⟩
  | _ => .nothing

def answer (dialogue : Dialogue) (line : String) : String := dialogue.scripted.headD line

def argument (dialogue : Dialogue) (line : String) : Option String :=
  if dialogue.isAsked then some (dialogue.answer line) else none

/-- The next call, with the line that was asked for. Lines of the console are echoed; only of a step
is more said, and not of the call that answers a question. -/
def next (dialogue : Dialogue) (line : String) : Dialogue × Said :=
  let turn := dialogue.session.step (dialogue.argument line)
  let echoed : Said := ⟨String.join (turn.lines.map echo), []⟩
  if dialogue.isAsked then
    ({ dialogue with session := turn.session, scripted := dialogue.scripted.tail }, echoed)
  else ({ dialogue with session := turn.session }, echoed.followedBy (remark turn.outcome))

/-- Every call of a conversation does something, so that a conversation ends. -/
theorem remaining_next_lt {dialogue : Dialogue} (line : String) (h : dialogue.isOver = false) :
    (dialogue.next line).1.session.remaining < dialogue.session.remaining := by
  have hstep := @Session.remaining_step_lt dialogue.session (dialogue.argument line) h fun hq => by
    simp [argument, isAsked, hq]
  unfold next
  dsimp only
  split <;> exact hstep

/-- The line that is heard after a prompt, if there is a prompt, and what is left of the input; none
if no line can be read. -/
def hear? : Option String → Input → Option (String × Input)
  | none, input => some ("", input)
  | some _, ⟨line :: lines, fault⟩ => some (line, ⟨lines, fault⟩)
  | some _, ⟨[], _⟩ => none

/-- The rest of a conversation: all that is said, and the session at its end unless no more lines
could be read before. -/
def converse (dialogue : Dialogue) (input : Input) : Said × Option Session :=
  if _ : dialogue.isOver then (.nothing, some dialogue.session)
  else
    let prompt := dialogue.prompt?.getD ""
    match hear? dialogue.prompt? input with
    | none => (⟨prompt, [input.complaint]⟩, none)
    | some (line, left) =>
      let (rest, ending) := (dialogue.next line).1.converse left
      ((Said.mk prompt []).followedBy ((dialogue.next line).2.followedBy rest), ending)
termination_by dialogue.session.remaining
decreasing_by exact remaining_next_lt line (by simpa using ‹¬dialogue.isOver = true›)

end Dialogue

end Flowchart.CommandLine
