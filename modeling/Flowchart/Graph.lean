import Flowchart.Text.Blank

/-!
Flow graphs: nodes joined by directed edges. A graph has one start node, which no edge leads to, and
its nodes have distinct numbers; edges may lead to nodes that do not exist. The order in which edges
were written decides between edges of one source.
-/

namespace Flowchart

abbrev NodeId := Nat

inductive NodeKind where
  | start
  | finish
  /-- Executes its body. -/
  | process
  /-- Chooses an edge by the truth of its body. -/
  | decision
  /-- Asks for a value, or executes its body. -/
  | io
  /-- Does nothing. -/
  | connector
  deriving DecidableEq, Repr

def NodeKind.name : NodeKind → String
  | start => "start"
  | finish => "end"
  | process => "process"
  | decision => "decision"
  | io => "io"
  | connector => "connector"

def NodeKind.isTerminal (kind : NodeKind) : Bool := kind = .start || kind = .finish

structure Node where
  id : NodeId
  kind : NodeKind
  label : String
  body : String
  deriving DecidableEq, Repr

inductive Branch where
  | yes
  | no
  deriving DecidableEq, Repr

def Branch.name : Branch → String
  | yes => "Y"
  | no => "N"

def Branch.ofOutcome (outcome : Bool) : Branch := if outcome then yes else no

/-- The tag that a label stands for: the letter `Y` or `N` in either case, blanks aside. -/
def Branch.ofLabel? (label : String) : Option Branch :=
  match Text.trimChars label.toList with
  | [c] => if c = 'y' || c = 'Y' then some yes else if c = 'n' || c = 'N' then some no else none
  | _ => none

structure Edge where
  source : NodeId
  target : NodeId
  tag : Option Branch
  deriving DecidableEq, Repr

inductive GraphError where
  | missingStart
  | severalStarts (starts : List NodeId)
  | startHasPredecessor (start source : NodeId)
  | repeatedNode (id : NodeId)
  /-- A node is drawn with a shape that has no meaning. -/
  | unknownShape (id : NodeId) (shape : String)
  deriving DecidableEq, Repr

def GraphError.message : GraphError → String
  | missingStart => "Program has no start node"
  | severalStarts starts =>
    "Program has more than one start node: [" ++ ", ".intercalate (starts.map Nat.repr) ++ "]"
  | startHasPredecessor start source =>
    "Start node '" ++ start.repr ++ "' has an incoming edge from node '" ++ source.repr ++ "'"
  | repeatedNode id => "Node id '" ++ id.repr ++ "' is used by more than one node"
  | unknownShape id shape =>
    "Node '" ++ id.repr ++ "' has an unregistered or invalid shape: '" ++ shape ++ "'"

def firstRepeated? (seen : List NodeId) : List NodeId → Option NodeId
  | [] => none
  | id :: rest => if id ∈ seen then some id else firstRepeated? (id :: seen) rest

/-- Numbers none of which is repeated are distinct. -/
theorem nodup_of_firstRepeated?_eq_none {seen ids : List NodeId}
    (h : firstRepeated? seen ids = none) : ids.Nodup ∧ ∀ id ∈ ids, id ∉ seen := by
  induction ids generalizing seen with
  | nil => simp
  | cons id rest ih =>
    simp only [firstRepeated?] at h
    split at h
    · simp at h
    · rename_i hnot
      obtain ⟨hrest, hseen⟩ := ih h
      refine ⟨List.nodup_cons.2 ⟨fun hmem => hseen id hmem (by simp), hrest⟩,
        fun other hmem => ?_⟩
      obtain rfl | hmem := List.mem_cons.1 hmem
      · exact hnot
      · exact fun hin => hseen other hmem (List.mem_cons_of_mem _ hin)

structure Graph where
  nodes : List Node
  edges : List Edge
  entry : Node
  distinct : (nodes.map Node.id).Nodup
  sole_entry : nodes.filter (·.kind = .start) = [entry]
  entry_untargeted : ∀ edge ∈ edges, edge.target ≠ entry.id

namespace Graph

/-- The graph of nodes and edges. Of several defects the first of these is named: a repeated number,
a missing start node, several start nodes, an edge to the start node. -/
def ofLists (nodes : List Node) (edges : List Edge) : Except GraphError Graph :=
  match hids : firstRepeated? [] (nodes.map Node.id) with
  | some id => .error (.repeatedNode id)
  | none =>
    match hstarts : nodes.filter (·.kind = .start) with
    | [] => .error .missingStart
    | [entry] =>
      match hedges : edges.find? (·.target = entry.id) with
      | some edge => .error (.startHasPredecessor entry.id edge.source)
      | none =>
        .ok ⟨nodes, edges, entry, (nodup_of_firstRepeated?_eq_none hids).1, hstarts,
          by simpa using hedges⟩
    | starts => .error (.severalStarts (starts.map Node.id))

def node? (graph : Graph) (id : NodeId) : Option Node := graph.nodes.find? (·.id = id)

def outgoing (graph : Graph) (id : NodeId) : List Edge := graph.edges.filter (·.source = id)

def successor? (graph : Graph) (id : NodeId) : Option NodeId :=
  (graph.outgoing id).head?.map Edge.target

end Graph

end Flowchart
