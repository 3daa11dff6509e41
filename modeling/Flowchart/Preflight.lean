import Flowchart.Directive
import Flowchart.Graph
import Flowchart.Statement

/-!
Preflight: what can be said of the bodies of a graph before it runs. Bodies that cannot be read are
found, and variables that are read somewhere but get a value nowhere.
-/

namespace Flowchart

inductive Reading where
  /-- The body is blank, or it is never looked at. -/
  | nothing
  | condition (expr : Expr)
  | question (directive : Directive)
  | statements (all : List Statement)
  | unreadable (error : SyntaxError)

namespace Reading

def exprs : Reading → List Expr
  | condition expr => [expr]
  | statements all => all.map Statement.expr
  | nothing | question _ | unreadable _ => []

def targets : Reading → List String
  | question directive => [directive.variableName]
  | statements all => all.filterMap Statement.target?
  | nothing | condition _ | unreadable _ => []

def error? : Reading → Option SyntaxError
  | unreadable error => some error
  | _ => none

def ofCondition (body : String) : Reading :=
  match Expr.parse body with
  | .ok expr => condition expr
  | .error error => unreadable error

def ofStatements (body : String) : Reading :=
  match Statement.parseAll body with
  | .ok parsed => statements parsed
  | .error error => unreadable error

end Reading

def Node.reading (node : Node) : Reading :=
  if Text.isAllBlank node.body then .nothing
  else
    match node.kind with
    | .start | .finish | .connector => .nothing
    | .decision => .ofCondition node.body
    | .process => .ofStatements node.body
    | .io =>
      match Directive.read? node.body with
      | some directive => .question directive
      | none => .ofStatements node.body

namespace Graph

/-- The variables that get a value in some body that can be read. -/
def assigned (graph : Graph) : List String := graph.nodes.flatMap (·.reading.targets)

def unreadable (graph : Graph) : List (NodeId × SyntaxError) :=
  graph.nodes.filterMap fun node => node.reading.error?.map (node.id, ·)

def readUnassigned (graph : Graph) : List (NodeId × String) :=
  graph.nodes.flatMap fun node =>
    (node.reading.exprs.flatMap Expr.variableNames).filterMap fun name =>
      if name ∈ graph.assigned then none else some (node.id, name)

end Graph

end Flowchart
