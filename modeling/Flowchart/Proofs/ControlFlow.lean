import Flowchart.Definition
import Flowchart.Proofs.Cursor
import Flowchart.Proofs.History

/-!
# Where control goes

A session is at one node after another, and only edges lead from one to the next: the first edge
that was written out of the node, or at a decision the first one with the tag of its outcome. What
this says is said of nodes and edges as they were written, not of the graph that was made of them.
-/

namespace Flowchart

def DrawnEdge.tagged (drawn : DrawnEdge) : Edge :=
  ⟨drawn.source, drawn.target, drawn.label.bind Branch.ofLabel?⟩

structure LeadsOn (edges : List Edge) (id : NodeId) (next : Option NodeId) : Prop where
  next_eq : next = (edges.find? (·.source = id)).map Edge.target
  next_eq_none_iff : next = none ↔ ∀ edge ∈ edges, edge.source ≠ id

/-- Where edges lead out of a decision that comes to an outcome, by an edge with which tag, and
whether only for want of an edge with the tag of the outcome. -/
inductive LeadsOut (edges : List Edge) (id : NodeId) (outcome : Bool) :
    Option Branch → Bool → Option NodeId → Prop
  | tagged {edge}
      (hedge : edges.find? (fun edge => edge.source = id ∧ edge.tag = some (.ofOutcome outcome))
        = some edge) :
      LeadsOut edges id outcome (some (.ofOutcome outcome)) false (some edge.target)
  | first {edge}
      (hnone : ∀ edge ∈ edges, edge.source = id → edge.tag ≠ some (.ofOutcome outcome))
      (hedge : edges.find? (·.source = id) = some edge) :
      LeadsOut edges id outcome edge.tag true (some edge.target)
  | nowhere (hnone : ∀ edge ∈ edges, edge.source ≠ id) : LeadsOut edges id outcome none false none

def Turn.Follows (nodes : List Node) (edges : List Edge) (before : Session) (turn : Turn) : Prop :=
  match turn.outcome with
  | .started entry next =>
    (∃ node ∈ nodes, node.id = entry ∧ node.kind = .start) ∧ LeadsOn edges entry next
  | .advanced id next => before.phase.node? = some id ∧ LeadsOn edges id next
  | .resumed _ _ next => ∃ id, before.phase.node? = some id ∧ LeadsOn edges id next
  | .branched id outcome taken fallback next reason =>
    before.phase.node? = some id
      ∧ (∃ node ∈ nodes, node.id = id ∧ node.kind = .decision
        ∧ Session.Judges before.environment node.body outcome reason turn.lines)
      ∧ LeadsOut edges id outcome taken fallback next
      ∧ (next = none ↔ ∀ edge ∈ edges, edge.source ≠ id)
      ∧ (next = none → fallback = false)
  | .finished id =>
    before.phase.node? = some id ∧ (∃ node ∈ nodes, node.id = id ∧ node.kind = .finish)
      ∧ turn.lines = [endMarker]
  | .failed (.brokenLink id) =>
    before.phase.node? = some id ∧ (∃ edge ∈ edges, edge.target = id) ∧ ∀ node ∈ nodes, node.id ≠ id
  | .suspended _ _ | .failed _ | .idle => True

namespace LeadsOut

variable {edges : List Edge} {id : NodeId} {outcome fallback : Bool} {taken : Option Branch}
  {next : Option NodeId}

/-- A decision leads nowhere exactly if no edge leads out of it. -/
theorem next_eq_none_iff (h : LeadsOut edges id outcome taken fallback next) :
    next = none ↔ ∀ edge ∈ edges, edge.source ≠ id := by
  cases h with
  | tagged hedge =>
      have hsource := List.find?_some hedge
      simp only [decide_eq_true_eq] at hsource
      exact ⟨nofun, fun hall => absurd hsource.1 (hall _ (List.mem_of_find?_eq_some hedge))⟩
  | first hnone hedge =>
      have hsource := List.find?_some hedge
      simp only [decide_eq_true_eq] at hsource
      exact ⟨nofun, fun hall => absurd hsource (hall _ (List.mem_of_find?_eq_some hedge))⟩
  | nowhere hnone => exact ⟨fun _ => hnone, fun _ => rfl⟩

theorem fallback_eq_false (h : LeadsOut edges id outcome taken fallback next)
    (hnext : next = none) : fallback = false := by
  cases h with
  | nowhere => rfl
  | _ => cases hnext

end LeadsOut

/-! ### Graphs and what they were made of -/

/-- A graph has these nodes, and edges that lead out of each node as these do, with the same tags if
it is a decision. -/
structure Graph.MadeOf (graph : Graph) (nodes : List Node) (edges : List Edge) : Prop where
  nodes_eq : graph.nodes = nodes
  targets_eq : ∀ id,
    (graph.outgoing id).map Edge.target = (edges.filter (·.source = id)).map Edge.target
  outgoing_eq : ∀ node ∈ nodes, node.kind = .decision →
    graph.outgoing node.id = edges.filter (·.source = node.id)

namespace Graph

variable {graph : Graph} {nodes : List Node} {edges : List Edge}

theorem nodes_edges_of_ofLists (h : ofLists nodes edges = .ok graph) :
    graph.nodes = nodes ∧ graph.edges = edges := by
  unfold ofLists at h
  split at h
  · cases h
  · split at h
    · cases h
    · split at h
      · cases h
      · cases h
        exact ⟨rfl, rfl⟩
    · cases h

namespace MadeOf

theorem leadsOn (h : graph.MadeOf nodes edges) (id : NodeId) :
    LeadsOn edges id (graph.successor? id) := by
  have hnext : graph.successor? id = (edges.find? (·.source = id)).map Edge.target := by
    rw [successor?, ← List.head?_map, h.targets_eq, List.head?_map, List.head?_filter]
  refine ⟨hnext, ?_⟩
  rw [hnext, Option.map_eq_none_iff, List.find?_eq_none]
  simp

/-- The edge that an outcome chooses is the first one with its tag, or the first one at all. -/
theorem leadsOut (h : graph.MadeOf nodes edges) {node : Node} (hnode : node ∈ nodes)
    (hkind : node.kind = .decision) {outcome : Bool} {choice : Option (Edge × Bool)}
    (hchoice : Session.choose (graph.outgoing node.id) outcome = choice) :
    LeadsOut edges node.id outcome (choice.bind (·.1.tag)) (choice.any (·.2))
      (choice.map (·.1.target)) := by
  subst hchoice
  rw [h.outgoing_eq node hnode hkind]
  unfold Session.choose
  split
  · rename_i edge hfound
    have htag : edge.tag = some (.ofOutcome outcome) := by simpa using List.find?_some hfound
    rw [List.find?_filter] at hfound
    change LeadsOut edges node.id outcome edge.tag false (some edge.target)
    rw [htag]
    exact .tagged (by simpa using hfound)
  · rename_i hnone
    have huntagged : ∀ edge ∈ edges, edge.source = node.id →
        edge.tag ≠ some (.ofOutcome outcome) := by
      simpa [List.find?_eq_none] using hnone
    rw [List.head?_filter]
    cases hfirst : edges.find? (·.source = node.id) with
    | some edge => exact .first huntagged hfirst
    | none => exact .nowhere (by simpa [List.find?_eq_none] using hfirst)

theorem isTarget_iff (h : graph.MadeOf nodes edges) (id : NodeId) :
    graph.IsTarget id ↔ ∃ edge ∈ edges, edge.target = id := by
  have hmem : ∀ {first second : List Edge}, (∀ source,
      (first.filter (·.source = source)).map Edge.target
        = (second.filter (·.source = source)).map Edge.target) →
      (∃ edge ∈ first, edge.target = id) → ∃ edge ∈ second, edge.target = id := by
    rintro first second htargets ⟨edge, hedge, rfl⟩
    have hin : edge.target ∈ (first.filter (·.source = edge.source)).map Edge.target :=
      List.mem_map_of_mem (List.mem_filter.mpr ⟨hedge, by simp⟩)
    rw [htargets] at hin
    obtain ⟨other, hother, htarget⟩ := List.mem_map.mp hin
    exact ⟨other, List.mem_of_mem_filter hother, htarget⟩
  exact ⟨hmem h.targets_eq, hmem fun source => (h.targets_eq source).symm⟩

end MadeOf

end Graph

/-! ### Moving and staying -/

namespace Session

variable {session : Session}

/-- A turn goes to the next node that its outcome names, to which an edge leads; if it names none,
it stays at the node where the session is. -/
structure Travels (session : Session) (turn : Turn) : Prop where
  moves : ∀ next ∈ turn.outcome.next?,
    turn.session.phase = .following next ∧ ∀ id ∈ next, session.graph.IsTarget id
  stays : turn.outcome.next? = none → turn.session.phase.node? = session.phase.node?

theorem Travels.of_count {turn : Turn} (h : session.count.Travels turn) : session.Travels turn :=
  ⟨h.moves, h.stays⟩

theorem travels_following {outcome : Outcome} {lines : List String} {environment : Environment}
    {next : Option NodeId} (hnext : outcome.next? = some next)
    (htarget : ∀ id ∈ next, session.graph.IsTarget id) :
    session.Travels (session.turn outcome lines environment (.following next)) := by
  refine ⟨fun other hother => ?_, fun hnone => ?_⟩
  · cases hnext.symm.trans hother
    exact ⟨rfl, htarget⟩
  · cases hnext.symm.trans hnone

theorem travels_staying {outcome : Outcome} {lines : List String} {environment : Environment}
    {phase : Phase} (hnext : outcome.next? = none) (hnode : phase.node? = session.phase.node?) :
    session.Travels (session.turn outcome lines environment phase) := by
  refine ⟨fun other hother => ?_, fun _ => hnode⟩
  cases hnext.symm.trans hother

theorem travels_fail (failure : Failure) (lines : List String) (environment : Environment) :
    session.Travels (session.fail failure lines environment) := travels_staying rfl rfl

/-- Executing a node goes along an edge or stays where it is. -/
theorem Executes.travels {id : NodeId} {turn : Turn} (h : session.Executes id turn)
    (hphase : session.phase = .running id) : session.Travels turn := by
  have hnode : session.phase.node? = some id := by rw [hphase, Phase.node?]
  cases h with
  | missing => exact travels_fail _ _ _
  | ended => exact travels_staying rfl hnode.symm
  | passed => exact travels_following rfl fun _ hnext => Graph.isTarget_of_successor? hnext
  | ran => exact travels_following rfl fun _ hnext => Graph.isTarget_of_successor? hnext
  | faulted => exact travels_fail _ _ _
  | asked => exact travels_staying rfl hnode.symm
  | branched => exact travels_following rfl fun _ hnext => isTarget_of_choose hnext
  | unjudged => exact travels_fail _ _ _

/-- A step goes along an edge or stays where it is. -/
theorem travels_step (session : Session) (answer : Option String) :
    session.Travels (session.step answer) := by
  have hreacts := session.reacts_step answer
  generalize session.step answer = turn at *
  cases hreacts with
  | idle => exact ⟨by simp [idle, Outcome.next?], fun _ => rfl⟩
  | exceeded => exact .of_count (travels_fail _ _ _)
  | started =>
      refine .of_count ?_
      exact travels_following rfl fun _ hnext => Graph.isTarget_of_successor? hnext
  | executed hphase hlimit hexecutes => exact .of_count (hexecutes.travels hphase)
  | accepted =>
      refine .of_count ?_
      exact travels_following rfl fun _ hnext => Graph.isTarget_of_successor? hnext

end Session

theorem Phase.node?_following (next : Option NodeId) : (Phase.following next).node? = next := by
  cases next <;> rfl

/-- Wherever a session is, an edge led there. -/
theorem Run.isTarget {graph : Graph} {limit : Nat} {moments : List Moment} {session : Session}
    (h : Run graph limit moments session) {id : NodeId} (hnode : session.phase.node? = some id) :
    graph.IsTarget id := by
  induction h generalizing id with
  | new => cases hnode
  | step hrun answer hcounted ih =>
      rename_i moments session
      obtain ⟨-, rfl, -⟩ := hrun.valid
      have htravels := session.travels_step answer
      cases hnext : (session.step answer).outcome.next? with
      | none => exact ih ((htravels.stays hnext).symm.trans hnode)
      | some next =>
          obtain ⟨hphase, htarget⟩ := htravels.moves next hnext
          rw [hphase, Phase.node?_following] at hnode
          exact htarget id hnode

/-! ### The right edge -/

namespace Session

variable {session : Session} {nodes : List Node} {edges : List Edge}

/-- What executing a node says of its way is true of nodes and edges. -/
theorem Executes.follows {id : NodeId} {turn : Turn} (h : session.count.Executes id turn)
    (hphase : session.phase = .running id) (hmade : session.graph.MadeOf nodes edges)
    (htarget : session.graph.IsTarget id) : turn.Follows nodes edges session := by
  have hnode : session.phase.node? = some id := by rw [hphase, Phase.node?]
  have hfound : ∀ {node}, session.graph.node? id = some node → node ∈ nodes ∧ node.id = id := by
    intro node hnode
    rw [← hmade.nodes_eq]
    exact Graph.mem_nodes_of_node? hnode
  cases h with
  | missing hmissing =>
      refine ⟨hnode, (hmade.isTarget_iff id).mp htarget, ?_⟩
      rw [← hmade.nodes_eq]
      intro node hmem hid
      exact List.find?_eq_none.mp hmissing node hmem (by simpa using hid)
  | ended hended hkind =>
      obtain ⟨hmem, hid⟩ := hfound hended
      exact ⟨hnode, ⟨_, hmem, hid, htarget.kind_eq_finish hended hkind⟩, rfl⟩
  | passed hpassed hbody =>
      obtain ⟨-, rfl⟩ := hfound hpassed
      exact ⟨hnode, hmade.leadsOn _⟩
  | ran hran hbody hwritten hresult =>
      obtain ⟨-, rfl⟩ := hfound hran
      exact ⟨hnode, hmade.leadsOn _⟩
  | faulted => trivial
  | asked => trivial
  | branched hbranched hkind hjudged =>
      rename_i node outcome reason lines
      obtain ⟨hmem, rfl⟩ := hfound hbranched
      have hleads := @Graph.MadeOf.leadsOut _ _ _ hmade _ hmem hkind outcome _ rfl
      exact ⟨hnode, ⟨_, hmem, rfl, hkind, hjudged⟩, hleads, hleads.next_eq_none_iff,
        hleads.fallback_eq_false⟩
  | unjudged => trivial

end Session

end Flowchart
