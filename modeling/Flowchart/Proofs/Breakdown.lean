import Flowchart.Proofs.Faulting
import Flowchart.Proofs.ReadingAhead

/-!
# What a failed call leaves behind

A run that breaks off is not rolled back. It stays at the node where it was, asks nothing any more,
and keeps what it had when the fault came: where the limit was passed or an edge led nowhere, that is
all as it was before the call; where a body has the fault, it is what the statements before the fault
have set, and what was printed up to it.
-/

namespace Flowchart

/-! ### Bodies with a fault -/

namespace Body

variable {environment left : Environment} {body : String} {lines : List String} {fault : Fault}

/-- Executing a body stops with a fault, in this environment and after these lines. -/
inductive Stops (environment : Environment) (body : String) (left : Environment)
    (lines : List String) : Fault → Prop
  /-- Statements after the one with the fault do not matter, and need not be readable. -/
  | faulted {executed statement rest fault}
      (hread : Statement.parseAll body = .ok (executed ++ statement :: rest)
        ∨ ∃ error, Statement.BreaksOff body (executed ++ statement :: rest) error)
      (hends : Ends environment executed (statement :: rest)
        (⟨left, lines, .error fault⟩ : Execution Unit)) :
      Stops environment body left lines fault
  | unreadable {executed error} (hread : Statement.BreaksOff body executed error)
      (hends : Ends environment executed [] (⟨left, lines, .ok ()⟩ : Execution Unit)) :
      Stops environment body left lines (.unreadable error)

inductive Misjudges (environment : Environment) (body : String) : List String → Fault → Prop
  | faulted {expr lines fault} (hread : Expr.parse body = .ok expr)
      (hfault : expr.Faults environment lines fault) : Misjudges environment body lines fault
  | unreadable {error} (hread : Expr.parse body = .error error) :
      Misjudges environment body [] (.unreadable error)

theorem Ends.rest_of_error {executed rest : List Statement} {run : Execution Unit}
    (h : Ends environment executed rest run) (hresult : run.result = .error fault) :
    ∃ statement others, rest = statement :: others
      ∧ Ends environment executed (statement :: others)
        (⟨run.environment, run.lines, .error fault⟩ : Execution Unit) := by
  cases h with
  | completed => cases hresult
  | faulted hdone hfault =>
      cases hresult
      exact ⟨_, _, rfl, .faulted hdone hfault⟩

/-- An execution that fails stops at the first statement that cannot be read or executed. -/
theorem stops_of_exec (h : (exec environment body).result = .error fault) :
    Stops environment body (exec environment body).environment (exec environment body).lines
      fault := by
  cases hparse : Statement.parseAll body with
  | ok statements =>
      obtain ⟨executed, rest, rfl, hends⟩ := ends_execAll environment statements
      rw [exec_of_parseAll hparse, Execution.map_eq_error_iff] at h
      obtain ⟨statement, others, rfl, hfaulted⟩ := hends.rest_of_error h
      rw [exec_of_parseAll hparse]
      exact .faulted (.inl hparse) hfaulted
  | error error =>
      obtain ⟨readable, hbreaks⟩ := Statement.breaksOff_of_parseAll hparse
      obtain ⟨executed, rest, rfl, hends⟩ := ends_execAll environment readable
      rw [exec_of_breaksOff hbreaks] at h ⊢
      cases hresult : (execAll environment (executed ++ rest)).result with
      | error other =>
          rw [Execution.andThen_of_error hresult] at h ⊢
          cases h
          obtain ⟨statement, others, rfl, hfaulted⟩ := hends.rest_of_error hresult
          exact .faulted (.inr ⟨error, hbreaks⟩) hfaulted
      | ok _ =>
          -- Whatever could be read has no fault, so it is the next statement that stops the body.
          rw [Execution.andThen_of_ok hresult] at h ⊢
          cases h
          generalize execAll environment (executed ++ rest) = run at *
          cases hends with
          | faulted => cases hresult
          | completed _ hdone =>
              rw [List.append_nil] at hbreaks
              refine .unreadable hbreaks ?_
              rw [Execution.preceded, Execution.stopped, List.append_nil]
              exact .completed () hdone

/-- A condition that fails stops at its expression. -/
theorem misjudges_of_condition (h : (condition environment body).result = .error fault) :
    Misjudges environment body (condition environment body).lines fault := by
  unfold condition at h ⊢
  cases hparse : Expr.parse body with
  | error error =>
      rw [hparse] at h
      cases h
      exact .unreadable hparse
  | ok expr =>
      rw [hparse] at h
      cases heval : expr.eval environment with
      | mk lines result =>
          simp only [heval] at h ⊢
          subst h
          exact .faulted hparse (Expr.faults_of_eval heval)

/-- Without tokens there are no statements before the complaint. -/
theorem eq_nil_of_breaksOff {readable : List Statement} {error other : SyntaxError}
    (hscan : Token.scan body = .error error) (hbreaks : Statement.BreaksOff body readable other) :
    readable = [] := by
  cases hbreaks with
  | tokens => rfl
  | statement hok =>
      rw [hscan] at hok
      cases hok

theorem Stops.of_unscanned (h : Stops environment body left lines fault) {error : SyntaxError}
    (hscan : Token.scan body = .error error) : left = environment ∧ lines = [] := by
  cases h with
  | @faulted executed statement rest _ hread =>
      rcases hread with hparse | ⟨other, hbreaks⟩
      · rw [Statement.parseAll, Statement.split, hscan] at hparse
        cases hparse
      · have hnone := eq_nil_of_breaksOff hscan hbreaks
        exact absurd hnone (by simp)
  | unreadable hbreaks hends =>
      obtain rfl := eq_nil_of_breaksOff hscan hbreaks
      cases hends with
      | completed _ hdone =>
          cases hdone
          exact ⟨rfl, rfl⟩

theorem Misjudges.of_unscanned (h : Misjudges environment body lines fault) {error : SyntaxError}
    (hscan : Token.scan body = .error error) : lines = [] := by
  cases h with
  | faulted hread =>
      rw [Expr.parse, hscan] at hread
      cases hread
  | unreadable => rfl

end Body

/-! ### Sessions that fail -/

/-- The registers are at this node of the graph, and failures name it so: by its label, or by its
number if the label is blank. -/
structure Registers.At (registers : Registers) (graph : Graph) (node : Node) (label : String) :
    Prop where
  current : registers.current = some node.id
  found : graph.node? node.id = some node
  named : label = if Text.isAllBlank node.label then "#" ++ node.id.repr else node.label

/-- What a call that fails leaves, by its failure: the environment, and the lines it has added to the
log. -/
inductive Failure.Leaves (graph : Graph) (before : Registers) :
    Failure → Environment → List String → Prop
  | stepLimit {limit} : Leaves graph before (.stepLimit limit) before.environment []
  | brokenLink {id} (hcurrent : before.current = some id) (hmissing : graph.node? id = none) :
      Leaves graph before (.brokenLink id) before.environment []
  | condition {node label lines fault} (hat : before.At graph node label)
      (hkind : node.kind = .decision)
      (hbody : Body.Misjudges before.environment node.body lines fault) :
      Leaves graph before (.evaluation label fault) before.environment lines
  | statements {node label left lines fault} (hat : before.At graph node label)
      (hkind : node.RunsStatements)
      (hbody : Body.Stops before.environment node.body left lines fault) :
      Leaves graph before (.evaluation label fault) left lines

theorem Registers.At.eq {graph : Graph} {registers : Registers} {node other : Node} {label : String}
    (h : registers.At graph other label) (hcurrent : registers.current = some node.id)
    (hfound : graph.node? node.id = some node) : other = node := by
  have hid : node.id = other.id := Option.some.inj (hcurrent.symm.trans h.current)
  rw [hid, h.found] at hfound
  exact Option.some.inj hfound

/-- A body whose characters make no tokens is not begun. -/
theorem Failure.Leaves.of_unscanned {graph : Graph} {before : Registers} {failure : Failure}
    {environment : Environment} {lines : List String} {node : Node} {error : SyntaxError}
    (h : failure.Leaves graph before environment lines) (hcurrent : before.current = some node.id)
    (hfound : graph.node? node.id = some node) (hscan : Token.scan node.body = .error error) :
    environment = before.environment ∧ lines = [] := by
  cases h with
  | stepLimit | brokenLink => exact ⟨rfl, rfl⟩
  | condition hat hkind hbody =>
      obtain rfl := hat.eq hcurrent hfound
      exact ⟨rfl, hbody.of_unscanned hscan⟩
  | statements hat hkind hbody =>
      obtain rfl := hat.eq hcurrent hfound
      exact hbody.of_unscanned hscan

def Registers.brokenOff (before : Registers) (failure : Failure) (environment : Environment)
    (lines : List String) : Registers :=
  { before with
    status := .failed
    pending := none
    error := some failure
    steps := before.steps + 1
    environment
    log := before.log ++ lines }

namespace Session

variable {session : Session} {answer : Option String} {failure : Failure}

/-- A step that fails leaves what its failure says. -/
theorem leaves_of_failed (h : (session.step answer).outcome = .failed failure) :
    ∃ environment lines, failure.Leaves session.graph session.registers environment lines
      ∧ session.step answer = session.count.fail failure lines environment := by
  have hreacts := session.reacts_step answer
  generalize session.step answer = turn at *
  cases hreacts with
  | idle | started | accepted => cases h
  | exceeded =>
      cases h
      exact ⟨_, _, .stepLimit, rfl⟩
  | @executed _ id _ hphase hlimit hexecutes =>
      have hcurrent : session.registers.current = some id := by
        rw [registers, hphase, Phase.node?]
      cases hexecutes with
      | ended | passed | ran | asked | branched => cases h
      | missing hnode =>
          cases h
          exact ⟨_, _, .brokenLink hcurrent hnode, rfl⟩
      | faulted hnode hbody hwritten hresult =>
          cases h
          obtain ⟨-, rfl⟩ := Graph.mem_nodes_of_node? hnode
          have hstops := Body.stops_of_exec hresult
          exact ⟨_, _, .statements ⟨hcurrent, hnode, rfl⟩ hbody hstops, rfl⟩
      | unjudged hnode hkind hwritten hresult =>
          cases h
          obtain ⟨-, rfl⟩ := Graph.mem_nodes_of_node? hnode
          have hmisjudges := Body.misjudges_of_condition hresult
          exact ⟨_, _, .condition ⟨hcurrent, hnode, rfl⟩ hkind hmisjudges, rfl⟩

theorem registers_fail (failure : Failure) (lines : List String) (environment : Environment) :
    (session.count.fail failure lines environment).session.registers
      = session.registers.brokenOff failure environment lines := rfl

/-- A session that is over stays as it is until it is reset. -/
theorem afterAll_of_finished (h : session.phase.isFinished) {later : List Call}
    (hlater : .reset ∉ later) : session.afterAll later = session := by
  induction later with
  | nil => rfl
  | cons call rest ih =>
      rw [List.mem_cons, not_or] at hlater
      cases call with
      | reset => exact absurd rfl hlater.1
      | step answer =>
          have hsame : session.after (.step answer) = session := by
            rw [after, step_of_finished h, idle]
          rw [afterAll, List.foldl_cons, hsame]
          exact ih hlater.2

end Session

/-- **A failed step leaves what it had come to.** It stays where it was, asks nothing, and leaves what
its failure says: where the limit was passed, an edge led nowhere or a condition had a fault, the
environment before the call; where a statement had a fault, the environment that the statements
before it have left, with the lines that were printed until then. A body whose characters make no
tokens is not begun. From then on nothing changes but by a reset. -/
theorem failed_step_leaves {graph : Graph} {limit : Nat} {calls : List Call} {answer : Option String}
    {failure : Failure}
    (hfailed : (((Session.new graph limit).afterAll calls).step answer).outcome = .failed failure) :
    let before := ((Session.new graph limit).afterAll calls).registers
    let session := (((Session.new graph limit).afterAll calls).step answer).session
    ∃ environment lines, failure.Leaves graph before environment lines
      ∧ session.registers = before.brokenOff failure environment lines
      ∧ Registers.step graph limit answer before
        = .ok (.failed failure, before.brokenOff failure environment lines)
      ∧ (∀ node error, before.current = some node.id → graph.node? node.id = some node →
        Token.scan node.body = .error error → environment = before.environment ∧ lines = [])
      ∧ ∀ later, .reset ∉ later → session.afterAll later = session := by
  intro before session
  obtain ⟨hvalid, hgraph, hlimit⟩ := (Session.valid_new graph limit).afterAll calls
  have hstep := Registers.step_registers answer fun _ hphase => hvalid.isTarget hphase
  obtain ⟨environment, lines, hleaves, hturn⟩ := Session.leaves_of_failed hfailed
  rw [hgraph] at hleaves
  have hregisters : session.registers = before.brokenOff failure environment lines := by
    change (Session.step _ _).session.registers = _
    rw [hturn, Session.registers_fail]
  have hfinished : session.phase.isFinished := by
    change (Session.step _ _).session.phase.isFinished
    rw [hturn]
    rfl
  rw [hgraph, hlimit, hfailed] at hstep
  refine ⟨environment, lines, hleaves, hregisters, ?_, fun node error => hleaves.of_unscanned,
    fun later => Session.afterAll_of_finished hfinished⟩
  rw [← hregisters]
  exact hstep

/-- The second of three statements prints a line and then has a fault. -/
theorem failed_step_leaves_second_of_three :
    let graph : Graph :=
      ⟨[⟨0, .start, "", ""⟩, ⟨1, .process, " ", "x = true; y = print(x) && -x; z = x"⟩],
        [⟨0, 1, none⟩], ⟨0, .start, "", ""⟩, by decide, by decide, by decide⟩
    let before := (Session.new graph 9).afterAll [.step none]
    let session := (before.step none).session
    (before.step none).outcome
        = .failed (.evaluation "#1" (.typeMismatch (.unary .negate) .number (.bool true)))
      ∧ session.registers.current = some 1 ∧ session.registers.status = .failed
      ∧ session.log = [startMarker, "true"]
      ∧ session.environment.get? "x" = some (.bool true) ∧ session.environment.get? "y" = none
      ∧ session.afterAll [.step none, .step (some "4")] = session := by
  intro graph before session
  have hfailed : (before.step none).outcome
      = .failed (.evaluation "#1" (.typeMismatch (.unary .negate) .number (.bool true))) := by
    decide +kernel
  obtain ⟨environment, lines, -, hregisters, -, -, hlater⟩ := failed_step_leaves hfailed
  have hcurrent := congrArg Registers.current hregisters
  have hbefore : before.registers.current = some 1 := by decide +kernel
  refine ⟨hfailed, hcurrent.trans hbefore, congrArg Registers.status hregisters, ?_, ?_, ?_,
    hlater _ (by simp)⟩
  all_goals decide +kernel

end Flowchart
