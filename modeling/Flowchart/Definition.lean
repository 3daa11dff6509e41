import Flowchart.Graph
import Flowchart.Text.Upper

/-!
Programs as they are drawn: nodes with the name of a shape, and edges with any label. Building one
gives the shapes their meaning and reads the labels of the edges out of decisions.
-/

namespace Flowchart

inductive Shape where
  | start
  | finish
  /-- A start node if its label says so, and an end node otherwise. -/
  | terminal
  | process
  | decision
  | io
  | connector
  deriving DecidableEq, Repr

namespace Shape

/-- The form in which the names of shapes are compared: without blanks around, in lower case. -/
def normalName (name : String) : String :=
  String.ofList ((Text.trimChars name.toList).map Char.toLower)

def ofName? (name : String) : Option Shape :=
  match normalName name with
  | "start" => some start
  | "end" => some finish
  | "terminal" => some terminal
  | "process" => some process
  | "decision" => some decision
  | "io" | "inputoutput" | "input_output" => some io
  | "connector" => some connector
  | _ => none

def kind (shape : Shape) (label : String) : NodeKind :=
  match shape with
  | start => .start
  | finish => .finish
  | terminal => if Text.mentionsInCapitals "START" label then .start else .finish
  | process => .process
  | decision => .decision
  | io => .io
  | connector => .connector

end Shape

/-- Further names of shapes, in normal form and the latest first. -/
abbrev Aliases := List (String × Shape)

namespace Aliases

/-- Gives a shape a further name; a shape that its name does not mean by itself is passed over. -/
def add (aliases : Aliases) (name shapeName : String) : Aliases :=
  match Shape.ofName? shapeName with
  | some shape => (Shape.normalName name, shape) :: aliases
  | none => aliases

/-- The shape that a name means: the latest alias comes before the name's own meaning. -/
def shape? (aliases : Aliases) (name : String) : Option Shape :=
  aliases.lookup (Shape.normalName name) <|> Shape.ofName? name

end Aliases

structure DrawnNode where
  id : NodeId
  shape : String
  label : String
  body : String
  deriving DecidableEq, Repr

structure DrawnEdge where
  source : NodeId
  target : NodeId
  label : Option String
  deriving DecidableEq, Repr

structure Definition where
  nodes : List DrawnNode
  edges : List DrawnEdge
  deriving DecidableEq, Repr

def DrawnNode.resolve (aliases : Aliases) (drawn : DrawnNode) : Except GraphError Node :=
  match aliases.shape? drawn.shape with
  | some shape => .ok ⟨drawn.id, shape.kind drawn.label, drawn.label, drawn.body⟩
  | none => .error (.unknownShape drawn.id drawn.shape)

/-- The edge that a drawn one stands for: only the label of an edge out of a decision is read. -/
def DrawnEdge.resolve (decisions : List NodeId) (drawn : DrawnEdge) : Edge :=
  ⟨drawn.source, drawn.target,
    if drawn.source ∈ decisions then drawn.label.bind Branch.ofLabel? else none⟩

/-- The graph that a drawn program stands for; unknown shapes are complained about first. -/
def Definition.build (definition : Definition) (aliases : Aliases) : Except GraphError Graph := do
  let nodes ← definition.nodes.mapM (DrawnNode.resolve aliases)
  let decisions := (nodes.filter (·.kind = .decision)).map Node.id
  Graph.ofLists nodes (definition.edges.map (DrawnEdge.resolve decisions))

def Definition.invalidMessage (reason : String) : String := "Invalid custom data: " ++ reason

end Flowchart
