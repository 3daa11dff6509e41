import Flowchart.Directive
import Flowchart.Evaluation
import Flowchart.Graph

/-!
Sessions: runs of a graph, one step a call. A call returns a turn, which holds what happened, the
lines it sent to the console, and the session as it is from then on; the log is all lines since the
last reset. Every call that does something is counted, and a session that is called more often than
its limit fails.
-/

namespace Flowchart

inductive Failure where
  | missingEntry
  /-- An edge led to a node that does not exist. -/
  | brokenLink (id : NodeId)
  /-- The body of the node with this label has a fault. -/
  | evaluation (label : String) (fault : Fault)
  | stepLimit (limit : Nat)
  deriving DecidableEq

namespace Failure

def messageAt (label complaint : String) : String := "ERROR at \"" ++ label ++ "\": " ++ complaint

def message : Failure → String
  | missingEntry => "NO START NODE"
  | brokenLink id => "BROKEN LINK: node '" ++ id.repr ++ "' does not exist"
  | evaluation label fault => messageAt label fault.message
  | stepLimit limit => "MAX STEPS EXCEEDED (" ++ limit.repr ++ "); infinite loop?"

def kindName : Failure → String
  | missingEntry => "MissingEntry"
  | brokenLink _ => "BrokenLink"
  | evaluation _ _ => "EvaluationError"
  | stepLimit _ => "MaxStepsExceeded"

end Failure

inductive Phase where
  | notStarted
  /-- The next step executes this node. -/
  | running (node : NodeId)
  /-- This node has asked the user a question. -/
  | waiting (node : NodeId) (question : Directive)
  /-- The run is over, at an end node or because no edge led on. -/
  | completed (node : Option NodeId)
  /-- The run was broken off, at this node if it had got to one. -/
  | failed (node : Option NodeId) (failure : Failure)
  deriving DecidableEq

namespace Phase

def node? : Phase → Option NodeId
  | notStarted => none
  | running node | waiting node _ => some node
  | completed node | failed node _ => node

def question? : Phase → Option Directive
  | waiting _ question => some question
  | _ => none

def failure? : Phase → Option Failure
  | failed _ failure => some failure
  | _ => none

def isFinished : Phase → Bool
  | completed _ | failed _ _ => true
  | _ => false

def statusName : Phase → String
  | notStarted => "NotStarted"
  | running _ => "Running"
  | waiting _ _ => "WaitingForInput"
  | completed _ => "Completed"
  | failed _ _ => "Failed"

def following : Option NodeId → Phase
  | some node => running node
  | none => completed none

end Phase

inductive Outcome where
  /-- The run began, and the first edge out of the entry was followed. -/
  | started (entry : NodeId) (next : Option NodeId)
  /-- A node other than a decision was executed, and its first edge followed. -/
  | advanced (node : NodeId) (next : Option NodeId)
  /-- A decision came to an outcome, for a reason. The edge followed had the tag `taken`; it was the
  first edge for want of one with the tag of the outcome if `fallback` is set. -/
  | branched (node : NodeId) (outcome : Bool) (taken : Option Branch) (fallback : Bool)
      (next : Option NodeId) (reason : String)
  | suspended (node : NodeId) (prompt : String)
  /-- An answer was taken as the value of a variable. -/
  | resumed (name : String) (value : Value) (next : Option NodeId)
  | finished (node : NodeId)
  | failed (failure : Failure)
  /-- Nothing happened: the run is over, or an answer is still missing. -/
  | idle
  deriving DecidableEq

def startMarker : String := "── PROGRAM START ──"

def endMarker : String := "── PROGRAM END ──"

def defaultLimit : Nat := 500

structure Session where
  graph : Graph
  /-- The number of counted calls after which the session fails. -/
  limit : Nat
  phase : Phase
  environment : Environment
  /-- All lines since the run began. -/
  log : List String
  /-- The number of calls that did something since the run began. -/
  steps : Nat

structure Turn where
  outcome : Outcome
  lines : List String
  session : Session

namespace Session

def new (graph : Graph) (limit : Nat) : Session := ⟨graph, limit, .notStarted, .empty, [], 0⟩

def reset (session : Session) : Session := new session.graph session.limit

def turn (session : Session) (outcome : Outcome) (lines : List String) (environment : Environment)
    (phase : Phase) : Turn :=
  ⟨outcome, lines, { session with phase, environment, log := session.log ++ lines }⟩

def fail (session : Session) (failure : Failure) (lines : List String) (environment : Environment) :
    Turn :=
  session.turn (.failed failure) lines environment (.failed session.phase.node? failure)

def start (session : Session) : Turn :=
  let entry := session.graph.entry.id
  let next := session.graph.successor? entry
  session.turn (.started entry next) [startMarker] session.environment (.following next)

def accept (session : Session) (node : NodeId) (question : Directive) (answer : String) : Turn :=
  let value := Value.ofInput answer
  let next := session.graph.successor? node
  session.turn (.resumed question.variableName value next) ["> " ++ answer]
    (session.environment.set question.variableName value) (.following next)

def advance (session : Session) (node : Node) (lines : List String) (environment : Environment) :
    Turn :=
  let next := session.graph.successor? node.id
  session.turn (.advanced node.id next) lines environment (.following next)

/-- The name of a node in messages: its label, or its number if the label is blank. -/
def nodeLabel (node : Node) : String :=
  if Text.isAllBlank node.label then "#" ++ node.id.repr else node.label

def runBody (session : Session) (node : Node) : Turn :=
  if Text.isAllBlank node.body then session.advance node [] session.environment
  else
    let run := Body.exec session.environment node.body
    match run.result with
    | .ok _ => session.advance node run.lines run.environment
    | .error fault => session.fail (.evaluation (nodeLabel node) fault) run.lines run.environment

/-- The edge out of a decision that an outcome chooses, with whether it is only the first one for
want of a tagged one. -/
def choose (edges : List Edge) (outcome : Bool) : Option (Edge × Bool) :=
  match edges.find? (·.tag = some (Branch.ofOutcome outcome)) with
  | some edge => some (edge, false)
  | none => edges.head?.map (·, true)

def follow (session : Session) (node : Node) (outcome : Bool) (reason : String)
    (lines : List String) : Turn :=
  let choice := choose (session.graph.outgoing node.id) outcome
  let next := choice.map (·.1.target)
  session.turn
    (.branched node.id outcome (choice.bind (·.1.tag)) (choice.any (·.2)) next reason)
    lines session.environment (.following next)

/-- The turn that comes to a decision; a blank condition is false. -/
def branch (session : Session) (node : Node) : Turn :=
  if Text.isAllBlank node.body then session.follow node false "empty condition" []
  else
    let condition := Body.condition session.environment node.body
    match condition.result with
    | .ok trace => session.follow node trace.outcome.isTruthy trace.reason condition.lines
    | .error fault =>
      session.fail (.evaluation (nodeLabel node) fault) condition.lines session.environment

def execute (session : Session) (id : NodeId) : Turn :=
  match session.graph.node? id with
  | none => session.fail (.brokenLink id) [] session.environment
  | some node =>
    match node.kind with
    | .start | .finish =>
      session.turn (.finished id) [endMarker] session.environment (.completed (some id))
    | .connector => session.advance node [] session.environment
    | .process => session.runBody node
    | .decision => session.branch node
    | .io =>
      match Directive.read? node.body with
      | some question =>
        session.turn (.suspended id question.prompt) [question.prompt] session.environment
          (.waiting id question)
      | none => session.runBody node

def idle (session : Session) : Turn := ⟨.idle, [], session⟩

/-- A counted turn: once the limit is passed the session fails instead. -/
def counted (session : Session) (act : Session → Turn) : Turn :=
  let session := { session with steps := session.steps + 1 }
  if session.limit < session.steps then
    session.fail (.stepLimit session.limit) [] session.environment
  else act session

/-- One call, perhaps with an answer. A session that is over does nothing, and one that waits does
nothing without an answer; in any other phase an answer is passed over. -/
def step (session : Session) (answer : Option String) : Turn :=
  match session.phase, answer with
  | .completed _, _ | .failed _ _, _ | .waiting _ _, none => session.idle
  | .notStarted, _ => session.counted start
  | .running node, _ => session.counted (·.execute node)
  | .waiting node question, some answer => session.counted (·.accept node question answer)

/-- The turns of at most `calls` steps without an answer; the run stops when it is over, and after a
turn that did nothing. -/
def run (session : Session) : Nat → List Turn
  | 0 => []
  | calls + 1 =>
    if session.phase.isFinished then []
    else
      let turn := session.step none
      turn :: if turn.outcome = .idle then [] else turn.session.run calls

/-- A bound on the calls that can still do something: none once the run is over, and otherwise one
more than the limit leaves. -/
def remaining (session : Session) : Nat :=
  if session.phase.isFinished then 0 else session.limit + 1 - session.steps + 1

end Session

inductive Call where
  | step (answer : Option String)
  | reset
  deriving DecidableEq, Repr

def Session.after (session : Session) : Call → Session
  | .step answer => (session.step answer).session
  | .reset => session.reset

def Session.afterAll (session : Session) (calls : List Call) : Session :=
  calls.foldl Session.after session

end Flowchart
