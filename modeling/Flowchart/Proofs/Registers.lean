import Flowchart.Proofs.Moves

/-!
# Sessions as registers

A session holds its phase as one piece. Here the node, the status, the question and the failure are
registers of their own, and the acts of a session set them one after the other, with failures that
leave whatever was set before them. Where an act needs what the registers may not hold, or meets a
node that it never executes, it stops with a defect.

On the registers of a session a step does what the session does, and meets no defect.
-/

namespace Flowchart

inductive Status where
  | notStarted
  | running
  | waiting
  | completed
  | failed
  deriving DecidableEq, Repr

inductive Defect where
  | noEntry
  | noNode
  /-- The entry is there to be executed. -/
  | entryExecuted
  /-- An answer is given, but no question was asked. -/
  | noQuestion
  deriving DecidableEq, Repr

/-- The parts of a session that change, each for itself. -/
structure Registers where
  current : Option NodeId
  status : Status
  environment : Environment
  log : List String
  pending : Option Directive
  steps : Nat
  error : Option Failure

def Phase.status : Phase → Status
  | notStarted => .notStarted
  | running _ => .running
  | waiting _ _ => .waiting
  | completed _ => .completed
  | failed _ _ => .failed

def Session.registers (session : Session) : Registers where
  current := session.phase.node?
  status := session.phase.status
  environment := session.environment
  log := session.log
  pending := session.phase.question?
  steps := session.steps
  error := session.phase.failure?

theorem Session.environment_registers (session : Session) :
    session.registers.environment = session.environment := rfl

namespace Registers

abbrev Setting := StateT Registers (Except Defect)

/-- An act sets registers and may fail, which leaves them as it has set them. -/
abbrev Act := ExceptT Failure Setting

/-! ### The acts of a session -/

def initial : Registers := ⟨none, .notStarted, .empty, [], none, 0, none⟩

def emit (lines : List String) : Act Unit :=
  modify fun registers => { registers with log := registers.log ++ lines }

def demand {α : Type} (defect : Defect) : Option α → Act α
  | some a => pure a
  | none => throwThe Defect defect

def goTo (place : Option NodeId) : Act (Option NodeId) := do
  modify fun registers => { registers with current := place }
  if place.isNone then modify fun registers => { registers with status := .completed }
  return place

def start (graph : Graph) : Act Outcome := do
  let entry := (← demand .noEntry (graph.node? graph.entry.id)).id
  modify fun registers => { registers with status := .running }
  modify fun registers => { registers with current := some entry }
  emit [startMarker]
  let next ← goTo (graph.successor? entry)
  return .started entry next

def accept (graph : Graph) (answer : String) : Act Outcome := do
  let question ← demand .noQuestion (← get).pending
  modify fun registers => { registers with pending := none }
  let value := Value.ofInput answer
  modify fun registers =>
    { registers with environment := registers.environment.set question.variableName value }
  emit ["> " ++ answer]
  modify fun registers => { registers with status := .running }
  let next ← goTo ((← get).current.bind graph.successor?)
  return .resumed question.variableName value next

def runBody (node : Node) : Act Unit := do
  if !Text.isAllBlank node.body then
    let run := Body.exec (← get).environment node.body
    modify fun registers => { registers with environment := run.environment }
    emit run.lines
    if let .error fault := run.result then throw (.evaluation (Session.nodeLabel node) fault)

def leave (graph : Graph) (id : NodeId) : Act Outcome := do
  let next ← goTo (graph.successor? id)
  return .advanced id next

def judge (node : Node) : Act (Bool × String) :=
  if Text.isAllBlank node.body then pure (false, "empty condition")
  else do
    let condition := Body.condition (← get).environment node.body
    emit condition.lines
    match condition.result with
    | .ok trace => return (trace.outcome.isTruthy, trace.reason)
    | .error fault => throw (.evaluation (Session.nodeLabel node) fault)

def follow (graph : Graph) (node : Node) (outcome : Bool) (reason : String) : Act Outcome := do
  let choice := Session.choose (graph.outgoing node.id) outcome
  let next ← goTo (choice.map (·.1.target))
  return .branched node.id outcome (choice.bind (·.1.tag)) (choice.any (·.2)) next reason

def branch (graph : Graph) (node : Node) : Act Outcome := do
  let (outcome, reason) ← judge node
  follow graph node outcome reason

def perform (graph : Graph) (node : Node) : Act Outcome :=
  match node.kind with
  -- No edge leads to the entry, so it is only ever passed when the run begins.
  | .start => throwThe Defect .entryExecuted
  | .finish => do
    emit [endMarker]
    modify fun registers => { registers with status := .completed }
    return .finished node.id
  | .connector => leave graph node.id
  | .process => do
    runBody node
    leave graph node.id
  | .decision => branch graph node
  | .io =>
    match Directive.read? node.body with
    | some question => do
      emit [question.prompt]
      modify fun registers => { registers with status := .waiting }
      modify fun registers => { registers with pending := some question }
      return .suspended node.id question.prompt
    | none => do
      runBody node
      leave graph node.id

def execute (graph : Graph) : Act Outcome := do
  let id ← demand .noNode (← get).current
  match graph.node? id with
  | none => throw (.brokenLink id)
  | some node => perform graph node

def fail (failure : Failure) : Setting Outcome := do
  modify fun registers => { registers with status := .failed }
  modify fun registers => { registers with pending := none }
  modify fun registers => { registers with error := some failure }
  return .failed failure

def settle (act : Act Outcome) : Setting Outcome := do
  match ← act.run with
  | .ok outcome => return outcome
  | .error failure => fail failure

def act (graph : Graph) (answer : Option String) (status : Status) : Act Outcome :=
  match status, answer with
  | .notStarted, _ => start graph
  | .waiting, some answer => accept graph answer
  | _, _ => execute graph

def step (graph : Graph) (limit : Nat) (answer : Option String) : Setting Outcome := do
  let status := (← get).status
  if status = .completed ∨ status = .failed then return .idle
  if status = .waiting ∧ answer = none then return .idle
  modify fun registers => { registers with steps := registers.steps + 1 }
  if limit < (← get).steps then fail (.stepLimit limit)
  else settle (act graph answer status)

def reset : Setting Unit := do
  modify fun registers => { registers with current := none }
  modify fun registers => { registers with environment := .empty }
  modify fun registers => { registers with log := [] }
  modify fun registers => { registers with status := .notStarted }
  modify fun registers => { registers with pending := none }
  modify fun registers => { registers with steps := 0 }
  modify fun registers => { registers with error := none }

def call (graph : Graph) (limit : Nat) : Call → Setting Unit
  | .step answer => discard (step graph limit answer)
  | .reset => reset

def callAll (graph : Graph) (limit : Nat) (calls : List Call) : Setting Unit :=
  calls.forM (call graph limit)

/-! ### Acts without a defect -/

/-- Without a defect, the act comes to this result and these registers. -/
def Does {α : Type} (act : Act α) (before : Registers) (result : Except Failure α)
    (after : Registers) : Prop :=
  act.run before = .ok (result, after)

section Does

variable {α β : Type} {before middle after : Registers}

theorem does_pure (a : α) : Does (pure a) before (.ok a) before := rfl

theorem does_modify (change : Registers → Registers) :
    Does (modify change) before (.ok ()) (change before) := rfl

theorem does_get : Does get before (.ok before) before := rfl

theorem does_throw (failure : Failure) :
    Does (throw failure : Act α) before (.error failure) before := rfl

theorem does_demand (defect : Defect) (a : α) :
    Does (demand defect (some a)) before (.ok a) before := rfl

theorem run_bind (act : Act α) (next : α → Act β) :
    (act >>= next).run before = act.run before >>= fun done =>
      ExceptT.bindCont next done.1 done.2 := rfl

theorem Does.run_bind {act : Act α} {a : α} (h : Does act before (.ok a) middle)
    (next : α → Act β) : (act >>= next).run before = (next a).run middle := by
  rw [Registers.run_bind, h]
  rfl

/-- What two acts do one after the other is what the second does after the first. -/
theorem Does.bind {act : Act α} {next : α → Act β} {a : α} {result : Except Failure β}
    (h : Does act before (.ok a) middle) (hnext : Does (next a) middle result after) :
    Does (act >>= next) before result after :=
  (h.run_bind next).trans hnext

theorem Does.bind_error {act : Act α} {next : α → Act β} {failure : Failure}
    (h : Does act before (.error failure) middle) :
    Does (act >>= next) before (.error failure) middle := by
  rw [Does, Registers.run_bind, h]
  rfl

theorem does_emit (lines : List String) :
    Does (emit lines) before (.ok ()) { before with log := before.log ++ lines } := rfl

theorem does_goTo (place : Option NodeId) :
    Does (goTo place) before (.ok place)
      { before with
        current := place
        status := if place.isNone then .completed else before.status } := by
  cases place <;> rfl

end Does

section RunBody

variable {before : Registers} {node : Node}

theorem does_runBody_of_blank (h : Text.isAllBlank node.body) :
    Does (runBody node) before (.ok ()) before := by
  rw [runBody, h]
  exact does_pure ()

/-- A body that is written is executed on the registers as on its own. -/
theorem does_runBody_of_written (h : Text.isAllBlank node.body = false) :
    Does (runBody node) before
      (((Body.exec before.environment node.body).result.map fun _ => ()).mapError
        (.evaluation (Session.nodeLabel node)))
      { before with
        environment := (Body.exec before.environment node.body).environment
        log := before.log ++ (Body.exec before.environment node.body).lines } := by
  rw [runBody, h]
  refine .bind does_get ?_
  refine .bind (does_modify _) ?_
  refine .bind (does_emit _) ?_
  cases (Body.exec before.environment node.body).result with
  | ok count => exact does_pure ()
  | error fault => exact does_throw _

theorem does_judge_of_blank (h : Text.isAllBlank node.body) :
    Does (judge node) before (.ok (false, "empty condition")) before := by
  rw [judge, if_pos h]
  exact does_pure _

theorem does_judge_of_written (h : ¬ Text.isAllBlank node.body) :
    Does (judge node) before
      (((Body.condition before.environment node.body).result.map fun trace =>
        (trace.outcome.isTruthy, trace.reason)).mapError (.evaluation (Session.nodeLabel node)))
      { before with log := before.log ++ (Body.condition before.environment node.body).lines } := by
  rw [judge, if_neg h]
  refine .bind does_get ?_
  refine .bind (does_emit _) ?_
  cases (Body.condition before.environment node.body).result with
  | ok trace => exact does_pure _
  | error fault => exact does_throw _

end RunBody

/-! ### A step sets the registers of the session after it -/

/-- Settled on the registers of a session, an act comes to the outcome and the registers of a turn. -/
def Yields (act : Act Outcome) (session : Session) (turn : Turn) : Prop :=
  settle act session.registers = .ok (turn.outcome, turn.session.registers)

variable {session : Session}

theorem settle_eq (act : Act Outcome) (registers : Registers) :
    settle act registers = act.run registers >>= fun done =>
      (match done.1 with
        | .ok outcome => pure outcome
        | .error failure => fail failure : Setting Outcome) done.2 := rfl

/-- An act that does what a turn says yields that turn. -/
theorem yields_of_does {act : Act Outcome} {turn : Turn}
    (h : Does act session.registers (.ok turn.outcome) turn.session.registers) :
    Yields act session turn := by
  rw [Yields, settle_eq, h]
  rfl

/-- An act that fails once it has set the environment and the log breaks the run off. -/
theorem yields_of_does_error {act : Act Outcome} {failure : Failure} {lines : List String}
    {environment : Environment}
    (h : Does act session.registers (.error failure)
      { session.registers with environment, log := session.log ++ lines }) :
    Yields act session (session.fail failure lines environment) := by
  rw [Yields, settle_eq, h]
  rfl

theorem registers_following (outcome : Outcome) (lines : List String) (environment : Environment)
    (next : Option NodeId) :
    (session.turn outcome lines environment (.following next)).session.registers =
      { current := next
        status := if next.isNone then .completed else .running
        environment
        log := session.log ++ lines
        pending := none
        steps := session.steps
        error := none } := by
  cases next <;> rfl

theorem yields_start (hphase : session.phase = .notStarted) :
    Yields (start session.graph) session session.start := by
  obtain ⟨graph, limit, phase, environment, log, steps⟩ := session
  subst hphase
  refine yields_of_does ?_
  unfold start Session.start
  rw [graph.node?_entry, registers_following]
  refine .bind (does_demand _ _) ?_
  refine .bind (does_modify _) ?_
  refine .bind (does_modify _) ?_
  refine .bind (does_emit _) ?_
  refine .bind (does_goTo _) ?_
  exact does_pure _

theorem yields_accept {node : NodeId} {question : Directive} (answer : String)
    (hphase : session.phase = .waiting node question) :
    Yields (accept session.graph answer) session (session.accept node question answer) := by
  obtain ⟨graph, limit, phase, environment, log, steps⟩ := session
  subst hphase
  refine yields_of_does ?_
  unfold accept Session.accept
  rw [registers_following]
  refine .bind does_get ?_
  refine .bind (does_demand _ question) ?_
  refine .bind (does_modify _) ?_
  refine .bind (does_modify _) ?_
  refine .bind (does_emit _) ?_
  refine .bind (does_modify _) ?_
  refine .bind does_get ?_
  refine .bind (does_goTo _) ?_
  exact does_pure _

section Running

variable {id : NodeId} {node : Node} (hphase : session.phase = .running id)

include hphase

/-- A node is left by its first edge, and without one the run completes. -/
theorem does_leave (lines : List String) (environment : Environment) (hid : node.id = id) :
    Does (leave session.graph id) { session.registers with environment, log := session.log ++ lines }
      (.ok (session.advance node lines environment).outcome)
      (session.advance node lines environment).session.registers := by
  obtain ⟨graph, limit, phase, env, log, steps⟩ := session
  subst hphase hid
  unfold leave Session.advance
  rw [registers_following]
  refine .bind (does_goTo _) ?_
  exact does_pure _

theorem does_leave_at_once (hid : node.id = id) :
    Does (leave session.graph id) session.registers
      (.ok (session.advance node [] session.environment).outcome)
      (session.advance node [] session.environment).session.registers := by
  have hleave := does_leave hphase [] session.environment hid
  rwa [List.append_nil] at hleave

theorem yields_runBody (hid : node.id = id) :
    Yields (do runBody node; leave session.graph id) session (session.runBody node) := by
  unfold Session.runBody
  by_cases hblank : Text.isAllBlank node.body
  · rw [if_pos hblank]
    exact yields_of_does ((does_runBody_of_blank hblank).bind (does_leave_at_once hphase hid))
  · rw [if_neg hblank]
    have hwritten : Text.isAllBlank node.body = false := by simpa using hblank
    have hbody := @does_runBody_of_written session.registers _ hwritten
    rw [Session.environment_registers] at hbody
    cases hresult : (Body.exec session.environment node.body).result with
    | ok count =>
        rw [hresult] at hbody
        simp only [hresult]
        exact yields_of_does (hbody.bind (does_leave hphase _ _ hid))
    | error fault =>
        rw [hresult] at hbody
        simp only [hresult]
        exact yields_of_does_error hbody.bind_error

theorem does_follow (outcome : Bool) (reason : String) (lines : List String) :
    Does (follow session.graph node outcome reason)
      { session.registers with log := session.log ++ lines }
      (.ok (session.follow node outcome reason lines).outcome)
      (session.follow node outcome reason lines).session.registers := by
  obtain ⟨graph, limit, phase, environment, log, steps⟩ := session
  subst hphase
  unfold follow Session.follow
  dsimp only
  rw [registers_following]
  refine .bind (does_goTo _) ?_
  exact does_pure _

/-- A decision sets the registers as its turn says. -/
theorem yields_branch : Yields (branch session.graph node) session (session.branch node) := by
  unfold Session.branch
  by_cases hblank : Text.isAllBlank node.body
  · rw [if_pos hblank]
    have hfollow := @does_follow _ _ node hphase false "empty condition" []
    rw [List.append_nil] at hfollow
    exact yields_of_does ((does_judge_of_blank hblank).bind hfollow)
  · rw [if_neg hblank]
    have hjudge := @does_judge_of_written session.registers _ hblank
    rw [Session.environment_registers] at hjudge
    cases hresult : (Body.condition session.environment node.body).result with
    | ok trace =>
        rw [hresult] at hjudge
        simp only [hresult]
        exact yields_of_does (hjudge.bind (does_follow hphase _ _ _))
    | error fault =>
        rw [hresult] at hjudge
        simp only [hresult]
        exact yields_of_does_error hjudge.bind_error

/-- Every node sets the registers as its turn says. -/
theorem yields_perform (hnode : session.graph.node? id = some node) (hstart : node.kind ≠ .start) :
    Yields (perform session.graph node) session (session.execute id) := by
  have hid := (Graph.mem_nodes_of_node? hnode).2
  unfold perform Session.execute
  rw [hnode]
  dsimp only
  cases hkind : node.kind with
  | start => exact absurd hkind hstart
  | finish =>
      refine yields_of_does ?_
      obtain ⟨graph, limit, phase, environment, log, steps⟩ := session
      subst hphase hid
      refine .bind (does_emit _) ?_
      refine .bind (does_modify _) ?_
      exact does_pure _
  | connector =>
      rw [hid]
      exact yields_of_does (does_leave_at_once hphase hid)
  | process =>
      rw [hid]
      exact yields_runBody hphase hid
  | decision => exact yields_branch hphase
  | io =>
      cases hquestion : Directive.read? node.body with
      | none =>
          rw [hid]
          exact yields_runBody hphase hid
      | some question =>
          refine yields_of_does ?_
          obtain ⟨graph, limit, phase, environment, log, steps⟩ := session
          subst hphase hid
          refine .bind (does_emit _) ?_
          refine .bind (does_modify _) ?_
          refine .bind (does_modify _) ?_
          exact does_pure _

/-- Executing a node that an edge leads to meets no defect. -/
theorem yields_execute (htarget : session.graph.IsTarget id) :
    Yields (execute session.graph) session (session.execute id) := by
  have hcurrent : session.registers.current = some id := by
    rw [Session.registers, hphase]
    rfl
  have hrun : (execute session.graph).run session.registers
      = (match session.graph.node? id with
          | none => throw (.brokenLink id)
          | some node => perform session.graph node : Act Outcome).run session.registers := by
    unfold execute
    rw [does_get.run_bind, hcurrent, (does_demand .noNode id).run_bind]
  cases hnode : session.graph.node? id with
  | none =>
      have hdoes : Does (execute session.graph) session.registers (.error (.brokenLink id))
          { session.registers with
            environment := session.environment
            log := session.log ++ [] } := by
        rw [Does, hrun, hnode, List.append_nil]
        rfl
      have hexecute : session.execute id = session.fail (.brokenLink id) [] session.environment := by
        rw [Session.execute, hnode]
      rw [hexecute]
      exact yields_of_does_error hdoes
  | some node =>
      have hperform := yields_perform hphase hnode (htarget.kind_ne_start hnode)
      rw [Yields, settle_eq, hrun, hnode, ← settle_eq]
      exact hperform

end Running

/-! ### Whole calls -/

section Step

variable {graph : Graph} {limit : Nat} {answer : Option String} {registers : Registers}

theorem get_bind {α : Type} (next : Registers → Setting α) :
    (get >>= next) registers = next registers registers := rfl

theorem modify_bind {α : Type} (change : Registers → Registers) (next : Unit → Setting α) :
    (modify change >>= next) registers = next () (change registers) := rfl

theorem step_of_finished (h : registers.status = .completed ∨ registers.status = .failed) :
    step graph limit answer registers = .ok (.idle, registers) := by
  unfold step
  dsimp only
  rw [get_bind, if_pos h]
  rfl

theorem step_of_unanswered (h : registers.status = .waiting) :
    step graph limit none registers = .ok (.idle, registers) := by
  unfold step
  dsimp only
  rw [get_bind, if_neg (by simp [h]), if_pos ⟨h, rfl⟩]
  rfl

/-- In an active session the next act is settled, unless the limit is used up. -/
theorem step_of_active (hactive : ¬ (registers.status = .completed ∨ registers.status = .failed))
    (hanswer : ¬ (registers.status = .waiting ∧ answer = none)) :
    step graph limit answer registers
      = (if limit < registers.steps + 1 then fail (.stepLimit limit)
        else settle (act graph answer registers.status))
        { registers with steps := registers.steps + 1 } := by
  unfold step
  dsimp only
  rw [get_bind, if_neg hactive, if_neg hanswer, modify_bind, get_bind]

end Step

/-- A counted call does what its act does on the registers of the counted session. -/
theorem step_counted {answer : Option String} {turnOf : Session → Turn}
    (hactive : session.phase.isFinished = false)
    (hanswer : ¬ (session.phase.status = .waiting ∧ answer = none))
    (h : Yields (act session.graph answer session.phase.status) session.count (turnOf session.count)) :
    step session.graph session.limit answer session.registers
      = .ok ((session.counted turnOf).outcome, (session.counted turnOf).session.registers) := by
  have hstatus : ¬ (session.registers.status = .completed ∨ session.registers.status = .failed) := by
    cases hphase : session.phase <;>
      simp [Session.registers, hphase, Phase.status, Phase.isFinished] at hactive ⊢
  have hsteps : session.registers.steps = session.steps := rfl
  rw [step_of_active hstatus hanswer, Session.counted_eq, hsteps]
  by_cases hlimit : session.limit < session.steps + 1
  · rw [if_pos hlimit, if_pos hlimit, Session.fail, Session.turn, List.append_nil]
    rfl
  · rw [if_neg hlimit, if_neg hlimit]
    exact h

/-- **Simulation.** On the registers of a session in which only targets of edges are executed, a step
meets no defect, has the session's outcome and sets the registers of the session after it. -/
theorem step_registers (answer : Option String)
    (hrunning : ∀ id, session.phase = .running id → session.graph.IsTarget id) :
    step session.graph session.limit answer session.registers
      = .ok ((session.step answer).outcome, (session.step answer).session.registers) := by
  cases hphase : session.phase with
  | notStarted =>
      rw [Session.step_of_notStarted hphase]
      refine step_counted (by simp [hphase, Phase.isFinished]) (by simp [hphase, Phase.status]) ?_
      rw [hphase]
      exact @yields_start session.count hphase
  | running id =>
      rw [Session.step_of_running hphase]
      refine step_counted (by simp [hphase, Phase.isFinished]) (by simp [hphase, Phase.status]) ?_
      rw [hphase]
      exact @yields_execute session.count id hphase (hrunning id hphase)
  | waiting id question =>
      have hwaiting : session.registers.status = .waiting := by
        simp [Session.registers, hphase, Phase.status]
      cases answer with
      | none =>
          rw [step_of_unanswered hwaiting, Session.step_of_unanswered hphase]
          rfl
      | some answer =>
          rw [Session.step_of_answered hphase]
          refine step_counted (by simp [hphase, Phase.isFinished]) (by simp) ?_
          rw [hphase]
          exact @yields_accept session.count id question answer hphase
  | completed place =>
      have hover : session.registers.status = .completed := by
        simp [Session.registers, hphase, Phase.status]
      rw [step_of_finished (.inl hover), Session.step_of_finished (by rw [hphase]; rfl)]
      rfl
  | failed place failure =>
      have hover : session.registers.status = .failed := by
        simp [Session.registers, hphase, Phase.status]
      rw [step_of_finished (.inr hover), Session.step_of_finished (by rw [hphase]; rfl)]
      rfl

theorem reset_registers (session : Session) :
    reset session.registers = .ok ((), session.reset.registers) := rfl

end Registers

end Flowchart
