import Flowchart.Json
import Flowchart.Session

/-!
Snapshots: all that an observer shows of a session after a call.
-/

namespace Flowchart

structure Snapshot where
  node : Option NodeId
  status : String
  bindings : List (String × Value)
  output : List String
  question : Option Directive
  failure : Option Failure
  steps : Nat
  deriving DecidableEq

def Session.snapshot (session : Session) : Snapshot where
  node := session.phase.node?
  status := session.phase.statusName
  bindings := session.environment.bindings
  output := session.log
  question := session.phase.question?
  failure := session.phase.failure?
  steps := session.steps

namespace Snapshot

def optional {α : Type} (write : α → Json) : Option α → Json
  | some a => write a
  | none => .null

def questionJson (question : Directive) : Json :=
  .object [("prompt", .text question.prompt), ("variable", .text question.variableName)]

def failureJson (failure : Failure) : Json :=
  .object [("kind", .text failure.kindName), ("message", .text failure.message)]

def toJson (snapshot : Snapshot) : Json :=
  .object
    [("current_node", optional Json.count snapshot.node),
     ("status", .text snapshot.status),
     ("variables", .object (snapshot.bindings.map fun (name, value) => (name, .ofValue value))),
     ("output", .list (snapshot.output.map .text)),
     ("pending_input", optional questionJson snapshot.question),
     ("error", optional failureJson snapshot.failure),
     ("steps", .count snapshot.steps)]

end Snapshot

end Flowchart
