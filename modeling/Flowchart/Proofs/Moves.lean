import Flowchart.Session
import Mathlib.Data.List.Nodup

/-!
# What a step can do

Every call of a session is one of a few moves: nothing happens, the limit is passed, the run begins,
or a node is left, asks a question, ends the run or breaks it off. What the graph was checked for
keeps the entry out of the nodes that are executed, because no edge leads there.
-/

namespace Flowchart

namespace Graph

variable {graph : Graph}

theorem mem_nodes_of_node? {id : NodeId} {node : Node} (h : graph.node? id = some node) :
    node ∈ graph.nodes ∧ node.id = id := by
  refine ⟨List.mem_of_find?_eq_some h, ?_⟩
  simpa using List.find?_some h

theorem entry_mem (graph : Graph) : graph.entry ∈ graph.nodes ∧ graph.entry.kind = .start := by
  have hmem : graph.entry ∈ graph.nodes.filter (·.kind = .start) := by
    rw [graph.sole_entry]
    exact List.mem_singleton_self _
  simpa using hmem

/-- The entry is the only start node. -/
theorem eq_entry_of_start {node : Node} (hmem : node ∈ graph.nodes) (hkind : node.kind = .start) :
    node = graph.entry := by
  have hstart : node ∈ graph.nodes.filter (·.kind = .start) := by simp [hmem, hkind]
  rw [graph.sole_entry] at hstart
  exact List.mem_singleton.mp hstart

theorem node?_eq_some_iff {id : NodeId} {node : Node} :
    graph.node? id = some node ↔ node ∈ graph.nodes ∧ node.id = id := by
  refine ⟨mem_nodes_of_node?, fun ⟨hmem, hid⟩ => ?_⟩
  cases hfound : graph.node? id with
  | none =>
      have hnone := List.find?_eq_none.mp hfound node hmem
      simp [hid] at hnone
  | some found =>
      obtain ⟨hfoundMem, hfoundId⟩ := mem_nodes_of_node? hfound
      rw [List.inj_on_of_nodup_map graph.distinct hfoundMem hmem (hfoundId.trans hid.symm)]

theorem node?_entry (graph : Graph) : graph.node? graph.entry.id = some graph.entry :=
  node?_eq_some_iff.mpr ⟨graph.entry_mem.1, rfl⟩

def IsTarget (graph : Graph) (id : NodeId) : Prop := ∃ edge ∈ graph.edges, edge.target = id

/-- No edge leads to the entry. -/
theorem IsTarget.ne_entry {id : NodeId} (h : graph.IsTarget id) : id ≠ graph.entry.id := by
  obtain ⟨edge, hmem, rfl⟩ := h
  exact graph.entry_untargeted edge hmem

theorem IsTarget.kind_ne_start {id : NodeId} {node : Node} (h : graph.IsTarget id)
    (hnode : graph.node? id = some node) : node.kind ≠ .start := by
  intro hkind
  obtain ⟨hmem, hid⟩ := mem_nodes_of_node? hnode
  have hentry := eq_entry_of_start hmem hkind
  exact h.ne_entry (by rw [← hid, hentry])

theorem IsTarget.kind_eq_finish {id : NodeId} {node : Node} (h : graph.IsTarget id)
    (hnode : graph.node? id = some node) (hkind : node.kind.isTerminal) : node.kind = .finish := by
  have hkinds : node.kind = .start ∨ node.kind = .finish := by
    simpa [NodeKind.isTerminal] using hkind
  exact hkinds.resolve_left (h.kind_ne_start hnode)

theorem isTarget_of_mem_outgoing {id : NodeId} {edge : Edge} (h : edge ∈ graph.outgoing id) :
    graph.IsTarget edge.target :=
  ⟨edge, List.mem_of_mem_filter h, rfl⟩

theorem isTarget_of_successor? {id next : NodeId} (h : graph.successor? id = some next) :
    graph.IsTarget next := by
  obtain ⟨edge, hedge, rfl⟩ := Option.map_eq_some_iff.mp h
  exact isTarget_of_mem_outgoing (List.mem_of_mem_head? hedge)

end Graph

theorem Phase.failure?_following (next : Option NodeId) :
    (Phase.following next).failure? = none := by
  cases next <;> rfl

theorem Phase.eq_failed_of_failure? {phase : Phase} {failure : Failure}
    (h : phase.failure? = some failure) : ∃ place, phase = .failed place failure := by
  cases phase with
  | failed place other =>
      cases h
      exact ⟨place, rfl⟩
  | _ => cases h

def Outcome.next? : Outcome → Option (Option NodeId)
  | started _ next | advanced _ next | branched _ _ _ _ next _ | resumed _ _ next => some next
  | suspended _ _ | finished _ | failed _ | idle => none

/-- A node whose body is statements: a process, or an I/O node that asks nothing. -/
def Node.RunsStatements (node : Node) : Prop :=
  node.kind = .process ∨ node.kind = .io ∧ Directive.read? node.body = none

namespace Session

def count (session : Session) : Session := { session with steps := session.steps + 1 }

/-- What a session does once a call is counted and the limit is kept. -/
inductive Acts (session : Session) : Turn → Prop
  /-- An edge is followed, or there is none to follow. -/
  | left {outcome lines environment next} (hnext : outcome.next? = some next)
      (htarget : ∀ id ∈ next, session.graph.IsTarget id) :
      Acts session (session.turn outcome lines environment (.following next))
  | asked {id node question} (hnode : session.graph.node? id = some node) (hkind : node.kind = .io)
      (hquestion : Directive.read? node.body = some question) :
      Acts session (session.turn (.suspended id question.prompt) [question.prompt]
        session.environment (.waiting id question))
  | ended {id node} (hnode : session.graph.node? id = some node) (hkind : node.kind = .finish) :
      Acts session (session.turn (.finished id) [endMarker] session.environment
        (.completed (some id)))
  | broken {failure lines environment} (hentry : failure ≠ .missingEntry)
      (hlimit : ∀ limit, failure ≠ .stepLimit limit) :
      Acts session (session.fail failure lines environment)

/-- A call does something: the run is not over, and a question that was asked is answered. -/
structure Responds (session : Session) (answer : Option String) : Prop where
  active : session.phase.isFinished = false
  answered : session.phase.question?.isSome → answer.isSome

/-- What a call does, by the phase it finds the session in. -/
inductive Moves (session : Session) (answer : Option String) : Turn → Prop
  | idle (hidle : ¬ session.Responds answer) : Moves session answer session.idle
  | exceeded (hresponds : session.Responds answer) (hlimit : session.limit ≤ session.steps) :
      Moves session answer
        (session.count.fail (.stepLimit session.limit) [] session.environment)
  | started (hphase : session.phase = .notStarted) (hlimit : session.steps < session.limit) :
      Moves session answer session.count.start
  | acted {node turn} (hnode : session.phase.node? = some node)
      (hresponds : session.Responds answer) (hlimit : session.steps < session.limit)
      (h : session.count.Acts turn) : Moves session answer turn

theorem mem_of_choose {edges : List Edge} {outcome fallback : Bool} {edge : Edge}
    (h : choose edges outcome = some (edge, fallback)) : edge ∈ edges := by
  unfold choose at h
  split at h
  · rename_i found hfound
    cases h
    exact List.mem_of_find?_eq_some hfound
  · obtain ⟨first, hfirst, heq⟩ := Option.map_eq_some_iff.mp h
    cases heq
    exact List.mem_of_mem_head? hfirst

theorem acts_start (session : Session) : session.Acts session.start :=
  .left rfl fun _ hnext => Graph.isTarget_of_successor? hnext

theorem acts_accept (session : Session) (node : NodeId) (question : Directive) (answer : String) :
    session.Acts (session.accept node question answer) :=
  .left rfl fun _ hnext => Graph.isTarget_of_successor? hnext

theorem acts_advance (session : Session) (node : Node) (lines : List String)
    (environment : Environment) : session.Acts (session.advance node lines environment) :=
  .left rfl fun _ hnext => Graph.isTarget_of_successor? hnext

theorem isTarget_of_choose {graph : Graph} {id next : NodeId} {outcome : Bool}
    (h : (choose (graph.outgoing id) outcome).map (·.1.target) = some next) :
    graph.IsTarget next := by
  obtain ⟨⟨edge, fallback⟩, hchoose, rfl⟩ := Option.map_eq_some_iff.mp h
  exact Graph.isTarget_of_mem_outgoing (mem_of_choose hchoose)

theorem acts_follow (session : Session) (node : Node) (outcome : Bool) (reason : String)
    (lines : List String) : session.Acts (session.follow node outcome reason lines) :=
  .left rfl fun _ hnext => isTarget_of_choose hnext

/-! ### The cases of an execution -/

inductive Judges (environment : Environment) (body : String) : Bool → String → List String → Prop
  | blank (h : Text.isAllBlank body) : Judges environment body false "empty condition" []
  | written {trace} (h : ¬ Text.isAllBlank body)
      (hresult : (Body.condition environment body).result = .ok trace) :
      Judges environment body trace.outcome.isTruthy trace.reason
        (Body.condition environment body).lines

/-- What comes of executing a node, by its kind and by what its body comes to. -/
inductive Executes (session : Session) (id : NodeId) : Turn → Prop
  | missing (hnode : session.graph.node? id = none) :
      Executes session id (session.fail (.brokenLink id) [] session.environment)
  | ended {node} (hnode : session.graph.node? id = some node) (hkind : node.kind.isTerminal) :
      Executes session id (session.turn (.finished id) [endMarker] session.environment
        (.completed (some id)))
  | passed {node} (hnode : session.graph.node? id = some node)
      (hbody : node.kind = .connector ∨ node.RunsStatements ∧ Text.isAllBlank node.body) :
      Executes session id (session.advance node [] session.environment)
  | ran {node count} (hnode : session.graph.node? id = some node) (hbody : node.RunsStatements)
      (hwritten : ¬ Text.isAllBlank node.body)
      (hresult : (Body.exec session.environment node.body).result = .ok count) :
      Executes session id (session.advance node (Body.exec session.environment node.body).lines
        (Body.exec session.environment node.body).environment)
  | faulted {node fault} (hnode : session.graph.node? id = some node) (hbody : node.RunsStatements)
      (hwritten : ¬ Text.isAllBlank node.body)
      (hresult : (Body.exec session.environment node.body).result = .error fault) :
      Executes session id (session.fail (.evaluation (nodeLabel node) fault)
        (Body.exec session.environment node.body).lines
        (Body.exec session.environment node.body).environment)
  | asked {node question} (hnode : session.graph.node? id = some node) (hkind : node.kind = .io)
      (hquestion : Directive.read? node.body = some question) :
      Executes session id (session.turn (.suspended id question.prompt) [question.prompt]
        session.environment (.waiting id question))
  | branched {node outcome reason lines} (hnode : session.graph.node? id = some node)
      (hkind : node.kind = .decision)
      (hjudged : Judges session.environment node.body outcome reason lines) :
      Executes session id (session.follow node outcome reason lines)
  | unjudged {node fault} (hnode : session.graph.node? id = some node)
      (hkind : node.kind = .decision) (hwritten : ¬ Text.isAllBlank node.body)
      (hresult : (Body.condition session.environment node.body).result = .error fault) :
      Executes session id (session.fail (.evaluation (nodeLabel node) fault)
        (Body.condition session.environment node.body).lines session.environment)

section Executes

variable {session : Session} {id : NodeId} {node : Node}

theorem executes_runBody (hnode : session.graph.node? id = some node) (hbody : node.RunsStatements) :
    session.Executes id (session.runBody node) := by
  unfold runBody
  by_cases hblank : Text.isAllBlank node.body
  · rw [if_pos hblank]
    exact .passed hnode (.inr ⟨hbody, hblank⟩)
  · rw [if_neg hblank]
    cases hresult : (Body.exec session.environment node.body).result with
    | ok count =>
        simp only [hresult]
        exact .ran hnode hbody hblank hresult
    | error fault =>
        simp only [hresult]
        exact .faulted hnode hbody hblank hresult

theorem executes_branch (hnode : session.graph.node? id = some node) (hkind : node.kind = .decision) :
    session.Executes id (session.branch node) := by
  unfold branch
  by_cases hblank : Text.isAllBlank node.body
  · rw [if_pos hblank]
    exact .branched hnode hkind (.blank hblank)
  · rw [if_neg hblank]
    cases hresult : (Body.condition session.environment node.body).result with
    | ok trace =>
        simp only [hresult]
        exact .branched hnode hkind (.written hblank hresult)
    | error fault =>
        simp only [hresult]
        exact .unjudged hnode hkind hblank hresult

/-- Executing a node does what its kind and its body ask for. -/
theorem executes_execute (session : Session) (id : NodeId) :
    session.Executes id (session.execute id) := by
  unfold execute
  cases hnode : session.graph.node? id with
  | none => exact .missing hnode
  | some node =>
      dsimp only
      cases hkind : node.kind with
      | start => exact .ended hnode (by rw [hkind]; rfl)
      | finish => exact .ended hnode (by rw [hkind]; rfl)
      | connector => exact .passed hnode (.inl hkind)
      | process => exact executes_runBody hnode (.inl hkind)
      | decision => exact executes_branch hnode hkind
      | io =>
          cases hquestion : Directive.read? node.body with
          | some question => exact .asked hnode hkind hquestion
          | none => exact executes_runBody hnode (.inr ⟨hkind, hquestion⟩)

/-- Executing a node that an edge leads to never meets the entry. -/
theorem Executes.acts {turn : Turn} (h : session.Executes id turn)
    (htarget : session.graph.IsTarget id) : session.Acts turn := by
  cases h with
  | missing hnode => exact .broken (by simp) (by simp)
  | ended hnode hkind => exact .ended hnode (htarget.kind_eq_finish hnode hkind)
  | passed hnode hbody => exact session.acts_advance _ _ _
  | ran hnode hbody hwritten hresult => exact session.acts_advance _ _ _
  | faulted hnode hbody hwritten hresult => exact .broken (by simp) (by simp)
  | asked hnode hkind hquestion => exact .asked hnode hkind hquestion
  | branched hnode hkind hjudged => exact session.acts_follow _ _ _ _
  | unjudged hnode hkind hwritten hresult => exact .broken (by simp) (by simp)

end Executes

/-! ### Steps by the phase they start in -/

theorem counted_eq (session : Session) (act : Session → Turn) :
    session.counted act =
      if session.limit < session.steps + 1 then
        session.count.fail (.stepLimit session.limit) [] session.environment
      else act session.count := rfl

/-- What a call does, with the phase that it finds the session in. -/
inductive Reacts (session : Session) : Option String → Turn → Prop
  | idle {answer} (hidle : ¬ session.Responds answer) : Reacts session answer session.idle
  | exceeded {answer} (hresponds : session.Responds answer) (hlimit : session.limit ≤ session.steps) :
      Reacts session answer
        (session.count.fail (.stepLimit session.limit) [] session.environment)
  | started {answer} (hphase : session.phase = .notStarted)
      (hlimit : session.steps < session.limit) : Reacts session answer session.count.start
  | executed {answer id turn} (hphase : session.phase = .running id)
      (hlimit : session.steps < session.limit) (h : session.count.Executes id turn) :
      Reacts session answer turn
  | accepted {id question answer} (hphase : session.phase = .waiting id question)
      (hlimit : session.steps < session.limit) :
      Reacts session (some answer) (session.count.accept id question answer)

section Step

variable {session : Session} {answer : Option String} {id : NodeId} {question : Directive}

theorem step_of_notStarted (hphase : session.phase = .notStarted) :
    session.step answer = session.counted start := by
  simp [step, hphase]

theorem step_of_running (hphase : session.phase = .running id) :
    session.step answer = session.counted (·.execute id) := by
  simp [step, hphase]

theorem step_of_unanswered (hphase : session.phase = .waiting id question) :
    session.step none = session.idle := by
  simp [step, hphase]

theorem step_of_answered (hphase : session.phase = .waiting id question) (answer : String) :
    session.step (some answer) = session.counted (·.accept id question answer) := by
  simp [step, hphase]

theorem step_of_finished (hfinished : session.phase.isFinished) :
    session.step answer = session.idle := by
  unfold step
  split
  case h_1 => rfl
  case h_2 => rfl
  case h_3 => rfl
  all_goals
    rename_i hphase
    rw [hphase] at hfinished
    cases hfinished

theorem responds_of_active (hactive : session.phase.isFinished = false)
    (hquestion : session.phase.question? = none) : session.Responds answer :=
  ⟨hactive, by simp [hquestion]⟩

theorem responds_notStarted (hphase : session.phase = .notStarted) : session.Responds answer :=
  responds_of_active (by rw [hphase]; rfl) (by rw [hphase]; rfl)

theorem reacts_counted {act : Session → Turn} (hresponds : session.Responds answer)
    (hact : session.steps < session.limit → session.Reacts answer (act session.count)) :
    session.Reacts answer (session.counted act) := by
  rw [counted_eq]
  split
  · exact .exceeded hresponds (by omega)
  · exact hact (by omega)

theorem responds_running (hphase : session.phase = .running id) : session.Responds answer :=
  responds_of_active (by rw [hphase]; rfl) (by rw [hphase]; rfl)

theorem responds_answered (hphase : session.phase = .waiting id question) (answer : String) :
    session.Responds (some answer) := ⟨by rw [hphase]; rfl, fun _ => rfl⟩

theorem not_responds_unanswered (hphase : session.phase = .waiting id question) :
    ¬ session.Responds none := by
  intro hresponds
  have hanswered := hresponds.answered (by rw [hphase]; rfl)
  cases hanswered

theorem not_responds_finished (hfinished : session.phase.isFinished) : ¬ session.Responds answer := by
  intro hresponds
  rw [hresponds.active] at hfinished
  cases hfinished

/-- Every step reacts by the phase that it finds. -/
theorem reacts_step (session : Session) (answer : Option String) :
    session.Reacts answer (session.step answer) := by
  by_cases hfinished : session.phase.isFinished
  · rw [step_of_finished hfinished]
    exact .idle (not_responds_finished hfinished)
  cases hphase : session.phase with
  | notStarted =>
      rw [step_of_notStarted hphase]
      exact reacts_counted (responds_notStarted hphase) (.started hphase)
  | running id =>
      rw [step_of_running hphase]
      exact reacts_counted (responds_running hphase) fun hlimit =>
        .executed hphase hlimit (executes_execute session.count id)
  | waiting id question =>
      cases answer with
      | none =>
          rw [step_of_unanswered hphase]
          exact .idle (not_responds_unanswered hphase)
      | some answer =>
          rw [step_of_answered hphase]
          exact reacts_counted (responds_answered hphase answer) (.accepted hphase)
  | completed place =>
      rw [hphase] at hfinished
      exact absurd rfl hfinished
  | failed place failure =>
      rw [hphase] at hfinished
      exact absurd rfl hfinished

/-- A call that is no response does nothing. -/
theorem step_of_not_responds (h : ¬ session.Responds answer) :
    session.step answer = session.idle := by
  have hreacts := session.reacts_step answer
  generalize session.step answer = turn at *
  cases hreacts with
  | idle _ => rfl
  | exceeded hresponds _ => exact absurd hresponds h
  | started hphase _ => exact absurd (responds_notStarted hphase) h
  | executed hphase _ _ => exact absurd (responds_running hphase) h
  | accepted hphase _ => exact absurd (responds_answered hphase _) h

/-- A call is one of the moves, as long as only targets of edges are executed. -/
theorem moves_step (answer : Option String)
    (hrunning : ∀ id, session.phase = .running id → session.graph.IsTarget id) :
    session.Moves answer (session.step answer) := by
  have hreacts := session.reacts_step answer
  generalize session.step answer = turn at *
  cases hreacts with
  | idle hidle => exact .idle hidle
  | exceeded hresponds hlimit => exact .exceeded hresponds hlimit
  | started hphase hlimit => exact .started hphase hlimit
  | executed hphase hlimit hexecutes =>
      exact .acted (by rw [hphase, Phase.node?]) (responds_running hphase) hlimit
        (hexecutes.acts (hrunning _ hphase))
  | accepted hphase hlimit =>
      exact .acted (by rw [hphase, Phase.node?]) (responds_answered hphase _) hlimit
        (acts_accept _ _ _ _)

end Step

end Session

end Flowchart
