import Flowchart.Proofs.ControlFlow
import Flowchart.Session.Snapshot
import Mathlib.Data.List.Find

/-!
# The order in which a graph is written down

Nodes may be written in any order and under any labels, and of the edges only those that lead out of
one node have an order that matters. Two sessions on graphs that differ in nothing else go through
the same states; a label is seen in no place but the failure that names it.
-/

namespace Flowchart

def Node.unlabelled (node : Node) : Node := { node with label := "" }

theorem Node.eq_of_unlabelled {node other : Node} (h : node.unlabelled = other.unlabelled) :
    node.id = other.id ∧ node.kind = other.kind ∧ node.body = other.body := by
  obtain ⟨hid, hkind, -, hbody⟩ := Node.mk.inj h
  exact ⟨hid, hkind, hbody⟩

def Failure.unlabelled : Failure → Failure
  | evaluation _ fault => evaluation "" fault
  | failure => failure

theorem Failure.unlabelled_evaluation (label other : String) (fault : Fault) :
    (evaluation label fault).unlabelled = (evaluation other fault).unlabelled := rfl

def Phase.unlabelled : Phase → Phase
  | failed place failure => failed place failure.unlabelled
  | phase => phase

def Outcome.unlabelled : Outcome → Outcome
  | failed failure => failed failure.unlabelled
  | outcome => outcome

def Snapshot.unlabelled (snapshot : Snapshot) : Snapshot :=
  { snapshot with failure := snapshot.failure.map Failure.unlabelled }

/-- Nodes and edges written down in two ways: the nodes are the same but for their order and their
labels, and the edges out of each node are the same in the same order. -/
structure Rearranged (nodes : List Node) (edges : List Edge) (others : List Node)
    (otherEdges : List Edge) : Prop where
  nodes_perm : (nodes.map Node.unlabelled).Perm (others.map Node.unlabelled)
  outgoing_eq : ∀ id, edges.filter (·.source = id) = otherEdges.filter (·.source = id)

namespace Rearranged

variable {nodes others : List Node} {edges otherEdges : List Edge}

theorem symm (h : Rearranged nodes edges others otherEdges) :
    Rearranged others otherEdges nodes edges :=
  ⟨h.nodes_perm.symm, fun id => (h.outgoing_eq id).symm⟩

theorem ids_perm (h : Rearranged nodes edges others otherEdges) :
    (nodes.map Node.id).Perm (others.map Node.id) := by
  have hids := h.nodes_perm.map Node.id
  rwa [List.map_map, List.map_map] at hids

theorem starts_perm (h : Rearranged nodes edges others otherEdges) :
    ((nodes.filter (·.kind = .start)).map Node.unlabelled).Perm
      ((others.filter (·.kind = .start)).map Node.unlabelled) := by
  have hstarts := h.nodes_perm.filter (·.kind = .start)
  rwa [List.filter_map, List.filter_map] at hstarts

/-- What is the only start node in one order is the only one in the other. -/
theorem sole_start (h : Rearranged nodes edges others otherEdges) {entry : Node}
    (hentry : nodes.filter (·.kind = .start) = [entry]) :
    ∃ other, others.filter (·.kind = .start) = [other]
      ∧ entry.unlabelled = other.unlabelled := by
  have hstarts := h.starts_perm
  rw [hentry, List.map_singleton, List.singleton_perm] at hstarts
  obtain ⟨other, hother, hsame⟩ := List.map_eq_singleton_iff.mp hstarts.symm
  exact ⟨other, hother, hsame.symm⟩

theorem mem_edges (h : Rearranged nodes edges others otherEdges) {edge : Edge}
    (hedge : edge ∈ otherEdges) : edge ∈ edges := by
  have hmem : edge ∈ otherEdges.filter (·.source = edge.source) :=
    List.mem_filter.mpr ⟨hedge, decide_eq_true rfl⟩
  rw [← h.outgoing_eq] at hmem
  exact List.mem_of_mem_filter hmem

end Rearranged

/-! ### Which graphs are accepted -/

theorem firstRepeated?_eq_none_of_nodup {seen ids : List NodeId} (hnodup : ids.Nodup)
    (hnew : ∀ id ∈ ids, id ∉ seen) : firstRepeated? seen ids = none := by
  induction ids generalizing seen with
  | nil => rfl
  | cons id rest ih =>
      obtain ⟨hid, hrest⟩ := List.nodup_cons.mp hnodup
      rw [firstRepeated?, if_neg (hnew id List.mem_cons_self)]
      refine ih hrest fun other hother hseen => ?_
      rcases List.mem_cons.mp hseen with rfl | hseen
      · exact hid hother
      · exact hnew other (List.mem_cons_of_mem _ hother) hseen

namespace Graph

variable {nodes : List Node} {edges : List Edge}

/-- A graph is made of all lists that have the properties that graphs have. -/
theorem exists_ofLists_iff :
    (∃ graph, ofLists nodes edges = .ok graph) ↔
      (nodes.map Node.id).Nodup ∧ ∃ entry, nodes.filter (·.kind = .start) = [entry]
        ∧ ∀ edge ∈ edges, edge.target ≠ entry.id := by
  constructor
  · rintro ⟨graph, hgraph⟩
    obtain ⟨rfl, rfl⟩ := nodes_edges_of_ofLists hgraph
    exact ⟨graph.distinct, graph.entry, graph.sole_entry, graph.entry_untargeted⟩
  · rintro ⟨hnodup, entry, hentry, huntargeted⟩
    have hids : firstRepeated? [] (nodes.map Node.id) = none :=
      firstRepeated?_eq_none_of_nodup hnodup fun _ _ hmem => by cases hmem
    have hedges : edges.find? (·.target = entry.id) = none :=
      List.find?_eq_none.mpr (by simpa using huntargeted)
    unfold ofLists
    split
    · rename_i hrepeated
      rw [hids] at hrepeated
      cases hrepeated
    · split
      · rename_i hnone
        rw [hentry] at hnone
        cases hnone
      · rename_i hsole
        rw [hentry] at hsole
        cases hsole
        split
        · rename_i htargeted
          rw [hedges] at htargeted
          cases htargeted
        · exact ⟨_, rfl⟩
      · rename_i hseveral
        exact absurd hentry (hseveral entry)

/-- Whether a graph can be made depends neither on the order of the lists nor on labels. -/
theorem exists_ofLists_of_rearranged {others : List Node} {otherEdges : List Edge}
    (h : Rearranged nodes edges others otherEdges)
    (hgraph : ∃ graph, ofLists nodes edges = .ok graph) :
    ∃ graph, ofLists others otherEdges = .ok graph := by
  obtain ⟨hnodup, entry, hentry, huntargeted⟩ := exists_ofLists_iff.mp hgraph
  obtain ⟨other, hother, hsame⟩ := h.sole_start hentry
  obtain ⟨hid, -, -⟩ := Node.eq_of_unlabelled hsame
  refine exists_ofLists_iff.mpr ⟨h.ids_perm.nodup hnodup, other, hother, fun edge hedge => ?_⟩
  rw [← hid]
  exact huntargeted edge (h.mem_edges hedge)

/-- Graphs that a session cannot tell apart but by the labels of nodes. -/
structure Alike (graph other : Graph) : Prop where
  entry_eq : graph.entry.id = other.entry.id
  node?_eq : ∀ id, (graph.node? id).map Node.unlabelled = (other.node? id).map Node.unlabelled
  outgoing_eq : ∀ id, graph.outgoing id = other.outgoing id

variable {graph other : Graph}

theorem Alike.successor?_eq (h : graph.Alike other) (id : NodeId) :
    graph.successor? id = other.successor? id := by
  rw [successor?, successor?, h.outgoing_eq]

theorem map_unlabelled_node? (graph : Graph) (id : NodeId) :
    (graph.node? id).map Node.unlabelled
      = (graph.nodes.map Node.unlabelled).find? (·.id = id) := by
  rw [List.find?_map]
  rfl

/-- Graphs made of rearranged lists are alike. -/
theorem alike_of_rearranged
    (h : Rearranged graph.nodes graph.edges other.nodes other.edges) : graph.Alike other := by
  refine ⟨?_, fun id => ?_, h.outgoing_eq⟩
  · obtain ⟨entry, hentry, hsame⟩ := h.sole_start graph.sole_entry
    rw [other.sole_entry] at hentry
    cases hentry
    exact (Node.eq_of_unlabelled hsame).1
  · -- The nodes that a number finds are one at most, so that their order does not matter.
    rw [map_unlabelled_node?, map_unlabelled_node?]
    refine List.find?_eq_find?_of_perm h.nodes_perm ?_
    rintro first ⟨hfirst, hfirstId⟩ second ⟨hsecond, hsecondId⟩
    have hnodup : ((graph.nodes.map Node.unlabelled).map Node.id).Nodup := by
      rw [List.map_map]
      exact graph.distinct
    refine List.inj_on_of_nodup_map hnodup hfirst hsecond ?_
    rw [of_decide_eq_true hfirstId, of_decide_eq_true hsecondId]

end Graph

/-! ### Two sessions side by side -/

structure Session.Alike (session other : Session) : Prop where
  graph : session.graph.Alike other.graph
  limit_eq : session.limit = other.limit
  phase_eq : session.phase.unlabelled = other.phase.unlabelled
  environment_eq : session.environment = other.environment
  log_eq : session.log = other.log
  steps_eq : session.steps = other.steps

structure Turn.Alike (turn other : Turn) : Prop where
  outcome_eq : turn.outcome.unlabelled = other.outcome.unlabelled
  lines_eq : turn.lines = other.lines
  session : turn.session.Alike other.session

namespace Phase

variable {phase other : Phase}

/-- Phases that are the same but for labels are the same, or both are a failure at one place. -/
theorem eq_or_failed_of_unlabelled (h : phase.unlabelled = other.unlabelled) :
    phase = other ∨ ∃ place failure otherFailure, phase = .failed place failure
      ∧ other = .failed place otherFailure ∧ failure.unlabelled = otherFailure.unlabelled := by
  cases phase with
  | failed place failure =>
      cases other with
      | failed otherPlace otherFailure =>
          obtain ⟨rfl, hfailure⟩ := Phase.failed.inj h
          exact .inr ⟨_, _, _, rfl, rfl, hfailure⟩
      | _ => cases h
  | _ =>
      cases other with
      | failed => cases h
      | _ => exact .inl h

end Phase

namespace Session.Alike

variable {session other : Session}

theorem node?_eq (h : session.Alike other) : session.phase.node? = other.phase.node? := by
  rcases Phase.eq_or_failed_of_unlabelled h.phase_eq with heq | ⟨_, _, _, heq, hother, -⟩
  · rw [heq]
  · rw [heq, hother]
    rfl

/-- Turns of sessions that are alike are so if their outcomes and phases are. -/
theorem turn (h : session.Alike other) {outcome otherOutcome : Outcome} {phase otherPhase : Phase}
    (houtcome : outcome.unlabelled = otherOutcome.unlabelled)
    (hphase : phase.unlabelled = otherPhase.unlabelled) (lines : List String)
    (environment : Environment) :
    (session.turn outcome lines environment phase).Alike
      (other.turn otherOutcome lines environment otherPhase) where
  outcome_eq := houtcome
  lines_eq := rfl
  session :=
    { h with
      phase_eq := hphase
      environment_eq := rfl
      log_eq := congrArg (· ++ lines) h.log_eq }

theorem idle (h : session.Alike other) : session.idle.Alike other.idle := ⟨rfl, rfl, h⟩

theorem fail (h : session.Alike other) {failure otherFailure : Failure}
    (hfailure : failure.unlabelled = otherFailure.unlabelled) (lines : List String)
    (environment : Environment) :
    (session.fail failure lines environment).Alike (other.fail otherFailure lines environment) := by
  have houtcome : (Outcome.failed failure).unlabelled = (Outcome.failed otherFailure).unlabelled :=
    congrArg Outcome.failed hfailure
  have hphase : (Phase.failed session.phase.node? failure).unlabelled
      = (Phase.failed other.phase.node? otherFailure).unlabelled := by
    rw [h.node?_eq]
    exact congrArg (Phase.failed _) hfailure
  exact h.turn houtcome hphase lines environment

theorem start (h : session.Alike other) : session.start.Alike other.start := by
  unfold Session.start
  dsimp only
  rw [h.graph.entry_eq, h.graph.successor?_eq, h.environment_eq]
  exact h.turn rfl rfl _ _

theorem accept (h : session.Alike other) (id : NodeId) (question : Directive) (answer : String) :
    (session.accept id question answer).Alike (other.accept id question answer) := by
  unfold Session.accept
  rw [h.graph.successor?_eq, h.environment_eq]
  exact h.turn rfl rfl _ _

section Execute

variable {node same : Node}

theorem advance (h : session.Alike other) (hid : node.id = same.id) (lines : List String)
    (environment : Environment) :
    (session.advance node lines environment).Alike (other.advance same lines environment) := by
  unfold Session.advance
  rw [hid, h.graph.successor?_eq]
  exact h.turn rfl rfl _ _

theorem follow (h : session.Alike other) (hid : node.id = same.id) (outcome : Bool)
    (reason : String) (lines : List String) :
    (session.follow node outcome reason lines).Alike
      (other.follow same outcome reason lines) := by
  unfold Session.follow
  rw [hid, h.graph.outgoing_eq, h.environment_eq]
  exact h.turn rfl rfl _ _

theorem runBody (h : session.Alike other) (hnode : node.unlabelled = same.unlabelled) :
    (session.runBody node).Alike (other.runBody same) := by
  obtain ⟨hid, -, hbody⟩ := Node.eq_of_unlabelled hnode
  unfold Session.runBody
  rw [hbody, h.environment_eq]
  by_cases hblank : Text.isAllBlank same.body
  · rw [if_pos hblank, if_pos hblank]
    exact h.advance hid _ _
  · rw [if_neg hblank, if_neg hblank]
    cases hresult : (Body.exec other.environment same.body).result with
    | ok count =>
        simp only [hresult]
        exact h.advance hid _ _
    | error fault =>
        simp only [hresult]
        exact h.fail (Failure.unlabelled_evaluation _ _ _) _ _

theorem branch (h : session.Alike other) (hnode : node.unlabelled = same.unlabelled) :
    (session.branch node).Alike (other.branch same) := by
  obtain ⟨hid, -, hbody⟩ := Node.eq_of_unlabelled hnode
  unfold Session.branch
  rw [hbody, h.environment_eq]
  by_cases hblank : Text.isAllBlank same.body
  · rw [if_pos hblank, if_pos hblank]
    exact h.follow hid _ _ _
  · rw [if_neg hblank, if_neg hblank]
    cases hresult : (Body.condition other.environment same.body).result with
    | ok trace =>
        simp only [hresult]
        exact h.follow hid _ _ _
    | error fault =>
        simp only [hresult]
        exact h.fail (Failure.unlabelled_evaluation _ _ _) _ _

/-- Nodes do the same in sessions that are alike. -/
theorem execute (h : session.Alike other) (id : NodeId) :
    (session.execute id).Alike (other.execute id) := by
  -- Both graphs find a node or neither does, and what they find differs in its label at most.
  have hnode := h.graph.node?_eq id
  unfold Session.execute
  cases hfound : session.graph.node? id with
  | none =>
      rw [hfound, Option.map_none, eq_comm, Option.map_eq_none_iff] at hnode
      rw [hnode, h.environment_eq]
      exact h.fail rfl _ _
  | some node =>
      rw [hfound, Option.map_some, eq_comm, Option.map_eq_some_iff] at hnode
      obtain ⟨same, hsame, heq⟩ := hnode
      obtain ⟨hid, hkind, hbody⟩ := Node.eq_of_unlabelled heq.symm
      rw [hsame]
      dsimp only
      rw [hkind, hbody, h.environment_eq]
      cases same.kind with
      | start | finish => exact h.turn rfl rfl _ _
      | connector => exact h.advance hid _ _
      | process => exact h.runBody heq.symm
      | decision => exact h.branch heq.symm
      | io =>
          cases Directive.read? same.body with
          | some question => exact h.turn rfl rfl _ _
          | none => exact h.runBody heq.symm

end Execute

/-- Counting keeps the likeness, whatever is done once the call is counted. -/
theorem counted (h : session.Alike other) {act : Session → Turn}
    (hact : session.count.Alike other.count → (act session.count).Alike (act other.count)) :
    (session.counted act).Alike (other.counted act) := by
  have hcount : session.count.Alike other.count :=
    { h with steps_eq := congrArg (· + 1) h.steps_eq }
  rw [counted_eq, counted_eq, h.limit_eq, h.steps_eq, h.environment_eq]
  by_cases hlimit : other.limit < other.steps + 1
  · rw [if_pos hlimit, if_pos hlimit]
    exact hcount.fail rfl _ _
  · rw [if_neg hlimit, if_neg hlimit]
    exact hact hcount

/-- **Sessions that are alike take like steps.** -/
theorem step (h : session.Alike other) (answer : Option String) :
    (session.step answer).Alike (other.step answer) := by
  rcases Phase.eq_or_failed_of_unlabelled h.phase_eq with heq | ⟨_, _, _, hfailed, hother, -⟩
  · cases hphase : other.phase with
    | notStarted =>
        rw [step_of_notStarted hphase, step_of_notStarted (heq.trans hphase)]
        exact h.counted start
    | running id =>
        rw [step_of_running hphase, step_of_running (heq.trans hphase)]
        exact h.counted (·.execute id)
    | waiting id question =>
        cases answer with
        | none =>
            rw [step_of_unanswered hphase, step_of_unanswered (heq.trans hphase)]
            exact h.idle
        | some answer =>
            rw [step_of_answered hphase, step_of_answered (heq.trans hphase)]
            exact h.counted (·.accept id question answer)
    | completed | failed =>
        rw [step_of_finished (by rw [heq, hphase]; rfl), step_of_finished (by rw [hphase]; rfl)]
        exact h.idle
  · rw [step_of_finished (by rw [hfailed]; rfl), step_of_finished (by rw [hother]; rfl)]
    exact h.idle

theorem new {graph same : Graph} (h : graph.Alike same) (limit : Nat) :
    (Session.new graph limit).Alike (Session.new same limit) :=
  ⟨h, rfl, rfl, rfl, rfl, rfl⟩

/-- One call keeps the likeness. -/
theorem after (h : session.Alike other) (call : Call) :
    (session.after call).Alike (other.after call) := by
  cases call with
  | step answer => exact (h.step answer).session
  | reset =>
      rw [Session.after, Session.after, reset, reset, h.limit_eq]
      exact new h.graph _

/-- Any calls in a row keep the likeness. -/
theorem afterAll (h : session.Alike other) (calls : List Call) :
    (session.afterAll calls).Alike (other.afterAll calls) := by
  induction calls generalizing session other with
  | nil => exact h
  | cons call rest ih => exact ih (h.after call)

/-- An observer sees the same of sessions that are alike, but for labels. -/
theorem snapshot_eq (h : session.Alike other) :
    session.snapshot.unlabelled = other.snapshot.unlabelled := by
  unfold snapshot Snapshot.unlabelled
  rw [h.environment_eq, h.log_eq, h.steps_eq]
  rcases Phase.eq_or_failed_of_unlabelled h.phase_eq with heq | ⟨_, _, _, heq, hother, hfailure⟩
  · rw [heq]
  · rw [heq, hother]
    simp only [Phase.failure?, Option.map_some, hfailure]
    rfl

end Session.Alike

section Rearranged

variable {nodes others : List Node} {edges otherEdges : List Edge}

/-- **Order and labels.** Of two ways to write nodes and edges down both make a graph or neither
does. If they do, sessions with the same limit that take the same calls come to the same snapshots,
and whatever is the next call they have the same outcome and send the same lines: all this but for
the label in a failure. -/
theorem order_and_labels_do_not_matter (h : Rearranged nodes edges others otherEdges) :
    ((∃ graph, Graph.ofLists nodes edges = .ok graph)
      ↔ ∃ graph, Graph.ofLists others otherEdges = .ok graph)
    ∧ ∀ graph other, Graph.ofLists nodes edges = .ok graph →
      Graph.ofLists others otherEdges = .ok other → ∀ limit calls,
        let session := (Session.new graph limit).afterAll calls
        let same := (Session.new other limit).afterAll calls
        session.snapshot.unlabelled = same.snapshot.unlabelled
          ∧ ∀ answer,
            (session.step answer).outcome.unlabelled = (same.step answer).outcome.unlabelled
            ∧ (session.step answer).lines = (same.step answer).lines := by
  refine ⟨⟨Graph.exists_ofLists_of_rearranged h, Graph.exists_ofLists_of_rearranged h.symm⟩, ?_⟩
  intro graph other hgraph hother limit calls session same
  obtain ⟨rfl, rfl⟩ := Graph.nodes_edges_of_ofLists hgraph
  obtain ⟨rfl, rfl⟩ := Graph.nodes_edges_of_ofLists hother
  have hgraphs : graph.Alike other := Graph.alike_of_rearranged h
  have halike : session.Alike same := (Session.Alike.new hgraphs limit).afterAll calls
  refine ⟨halike.snapshot_eq, fun answer => ?_⟩
  have hturn := halike.step answer
  exact ⟨hturn.outcome_eq, hturn.lines_eq⟩

/-- A loop whose exit has a fault, written down in two ways: the failures name different labels, and
the snapshots differ in nothing else. -/
theorem order_and_labels_do_not_matter_loop :
    let nodes : List Node :=
      [⟨0, .start, "", ""⟩, ⟨1, .process, "begin", "x = true; y = x"⟩, ⟨2, .decision, "again", "x"⟩,
        ⟨3, .process, "round", "x = y; y = false"⟩, ⟨4, .process, "leave", "x = z"⟩]
    let others : List Node :=
      [⟨4, .process, " ", "x = z"⟩, ⟨3, .process, "", "x = y; y = false"⟩, ⟨2, .decision, "", "x"⟩,
        ⟨0, .start, "entry", ""⟩, ⟨1, .process, "", "x = true; y = x"⟩]
    let edges : List Edge :=
      [⟨0, 1, none⟩, ⟨1, 2, none⟩, ⟨2, 4, none⟩, ⟨2, 3, some .yes⟩, ⟨3, 2, none⟩]
    let otherEdges : List Edge :=
      [⟨3, 2, none⟩, ⟨2, 4, none⟩, ⟨1, 2, none⟩, ⟨2, 3, some .yes⟩, ⟨0, 1, none⟩]
    Rearranged nodes edges others otherEdges
      ∧ ∃ graph other, Graph.ofLists nodes edges = .ok graph
        ∧ Graph.ofLists others otherEdges = .ok other
        ∧ let calls := List.replicate 8 (.step none)
          let session := (Session.new graph 9).afterAll calls
          let same := (Session.new other 9).afterAll calls
          session.phase = .failed (some 4) (.evaluation "leave" (.undefinedVariable "z"))
            ∧ same.phase = .failed (some 4) (.evaluation "#4" (.undefinedVariable "z"))
            ∧ session.snapshot.unlabelled = same.snapshot.unlabelled := by
  intro nodes others edges otherEdges
  have h : Rearranged nodes edges others otherEdges := by
    refine ⟨by decide, fun id => ?_⟩
    match id with
    | 0 | 1 | 2 | 3 | _ + 4 => rfl
  let graph : Graph := ⟨nodes, edges, ⟨0, .start, "", ""⟩, by decide, by decide, by decide⟩
  let other : Graph :=
    ⟨others, otherEdges, ⟨0, .start, "entry", ""⟩, by decide, by decide, by decide⟩
  refine ⟨h, graph, other, rfl, rfl, by decide +kernel, by decide +kernel, ?_⟩
  exact ((order_and_labels_do_not_matter h).2 graph other rfl rfl 9 _).1

end Rearranged

end Flowchart
