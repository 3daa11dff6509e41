import Mathlib.Data.List.TakeWhile
import Flowchart.Preflight
import Flowchart.Proofs.Execution
import Flowchart.Proofs.History

/-!
# Reading ahead

Preflight reads every body before the run, and the run reads a statement only when it comes to it.
Both find the same: a body that was read ahead is executed as it was read, and a run that meets
something unreadable is at a node whose body preflight complained about in the same words.
-/

namespace Flowchart

namespace Statement

/-- The statements of a body before the first that cannot be read, and the complaint about that one.
There are none if the characters of the body make no tokens. -/
inductive BreaksOff (body : String) : List Statement → SyntaxError → Prop
  | tokens {error} (hscan : Token.scan body = .error error) : BreaksOff body [] error
  | statement {tokens front chunk back readable error} (hscan : Token.scan body = .ok tokens)
      (hsplit : splitFrom [] tokens = front ++ chunk :: back)
      (hreadable : front.mapM ofTokens = .ok readable) (hchunk : ofTokens chunk = .error error) :
      BreaksOff body readable error

/-- Reading ahead breaks off at the first statement that cannot be read. -/
theorem breaksOff_of_parseAll {body : String} {error : SyntaxError}
    (h : parseAll body = .error error) : ∃ readable, BreaksOff body readable error := by
  rw [parseAll, split] at h
  cases hscan : Token.scan body with
  | error other =>
      rw [hscan] at h
      cases h
      exact ⟨[], .tokens hscan⟩
  | ok tokens =>
      rw [hscan] at h
      obtain ⟨front, chunk, back, readable, hsplit, hreadable, hchunk⟩ :=
        mapM_eq_error_iff.mp h
      exact ⟨readable, .statement hscan hsplit hreadable hchunk⟩

end Statement

namespace Body

variable {body : String} {error : SyntaxError}

/-- A body that can be read is executed statement by statement. -/
theorem exec_of_parseAll {statements : List Statement}
    (h : Statement.parseAll body = .ok statements) (environment : Environment) :
    exec environment body = (execAll environment statements).map fun _ => statements.length := by
  obtain ⟨chunks, hsplit, hread⟩ := bind_eq_ok_iff.mp h
  rw [exec_of_split hsplit, execChunks_eq_execAll hread, (mapM_eq_ok_iff.mp hread).length_eq]

/-- A body that cannot be read is executed up to the complaint. -/
theorem exec_of_breaksOff {readable : List Statement} (h : Statement.BreaksOff body readable error)
    (environment : Environment) :
    exec environment body = (execAll environment readable).andThen fun left _ =>
      .stopped left (.unreadable error) := by
  cases h with
  | tokens hscan => exact exec_of_not_split (by rw [Statement.split, hscan]; rfl)
  | statement hscan hsplit hreadable hchunk =>
      rw [exec_of_split (by rw [Statement.split, hscan, Except.map, hsplit]), execChunks_append,
        execChunks_eq_execAll hreadable, Execution.map_andThen]
      simp only [execChunks_of_unreadable hchunk]
      rfl

end Body

/-! ### Bodies of nodes -/

inductive Node.Faults (node : Node) (environment : Environment) (fault : Fault) : Prop
  | statements (hbody : node.RunsStatements) (hwritten : ¬ Text.isAllBlank node.body)
      (hresult : (Body.exec environment node.body).result = .error fault)
  | condition (hkind : node.kind = .decision) (hwritten : ¬ Text.isAllBlank node.body)
      (hresult : (Body.condition environment node.body).result = .error fault)

inductive Node.Unreadable (node : Node) (error : SyntaxError) : Prop
  | statements (hbody : node.RunsStatements) (hparse : Statement.parseAll node.body = .error error)
  | condition (hkind : node.kind = .decision) (hparse : Expr.parse node.body = .error error)

namespace Body

/-- A complaint while executing is made when reading ahead as well. -/
theorem parseAll_of_unreadable {environment : Environment}
    (h : (exec environment body).result = .error (.unreadable error)) :
    Statement.parseAll body = .error error := by
  -- Statements that were read have only faults of evaluation, so the complaint is the parser's.
  cases hparse : Statement.parseAll body with
  | ok statements =>
      rw [exec_of_parseAll hparse, Execution.map_eq_error_iff] at h
      exact absurd h (execAll_ne_unreadable environment statements error)
  | error other =>
      obtain ⟨readable, hbreaks⟩ := Statement.breaksOff_of_parseAll hparse
      rw [exec_of_breaksOff hbreaks] at h
      rcases Execution.andThen_eq_error_iff.mp h with h | ⟨_, -, h⟩
      · exact absurd h (execAll_ne_unreadable environment readable error)
      · cases h
        rfl

theorem parse_of_unreadable {environment : Environment}
    (h : (condition environment body).result = .error (.unreadable error)) :
    Expr.parse body = .error error := by
  unfold condition at h
  cases hparse : Expr.parse body with
  | ok expr =>
      rw [hparse] at h
      exact absurd h (expr.evaluates_eval environment error)
  | error other =>
      rw [hparse] at h
      cases h
      rfl

end Body

theorem Text.skipBlanks_of_isAllBlank {s : String} (h : isAllBlank s) : skipBlanks s.toList = [] :=
  List.dropWhile_eq_nil_iff.mpr (List.all_eq_true.mp h)

theorem Directive.not_isAllBlank_of_read? {body : String} {question : Directive}
    (h : read? body = some question) : ¬ Text.isAllBlank body := by
  intro hblank
  have htrim : Text.trimChars body.toList = [] := by
    rw [Text.trimChars, Text.skipBlanks_of_isAllBlank hblank]
    rfl
  rw [read?, htrim] at h
  cases h

namespace Node

variable {node : Node} {error : SyntaxError}

theorem reading_of_runsStatements (hbody : node.RunsStatements)
    (hwritten : ¬ Text.isAllBlank node.body) : node.reading = .ofStatements node.body := by
  rw [reading, if_neg hwritten]
  rcases hbody with hkind | ⟨hkind, hquestion⟩
  · rw [hkind]
  · rw [hkind, hquestion]

theorem reading_of_decision (hkind : node.kind = .decision)
    (hwritten : ¬ Text.isAllBlank node.body) : node.reading = .ofCondition node.body := by
  rw [reading, if_neg hwritten, hkind]

theorem reading_of_question {question : Directive} (hkind : node.kind = .io)
    (hquestion : Directive.read? node.body = some question) :
    node.reading = .question question := by
  rw [reading, if_neg (Directive.not_isAllBlank_of_read? hquestion), hkind, hquestion]

/-- A run that cannot read a body complains as preflight does. -/
theorem Faults.reading {environment : Environment}
    (h : node.Faults environment (.unreadable error)) :
    node.reading = .unreadable error ∧ node.Unreadable error := by
  cases h with
  | statements hbody hwritten hresult =>
      have hparse := Body.parseAll_of_unreadable hresult
      rw [reading_of_runsStatements hbody hwritten, Reading.ofStatements, hparse]
      exact ⟨rfl, .statements hbody hparse⟩
  | condition hkind hwritten hresult =>
      have hparse := Body.parse_of_unreadable hresult
      rw [reading_of_decision hkind hwritten, Reading.ofCondition, hparse]
      exact ⟨rfl, .condition hkind hparse⟩

end Node

/-! ### Runs -/

namespace Session

/-- A run that was broken off by a fault is at the node that has the fault. -/
def Blames (session : Session) : Prop :=
  ∀ place label fault, session.phase = .failed place (.evaluation label fault) →
    ∃ node environment, place = some node.id ∧ session.graph.node? node.id = some node
      ∧ label = nodeLabel node ∧ node.Faults environment fault

variable {session : Session}

theorem blames_of_failure? (h : session.phase.failure? = none) : session.Blames := by
  intro place label fault hphase
  rw [hphase] at h
  cases h

/-- A step that fails is at the node with the fault. -/
theorem blames_step (h : session.Blames) (answer : Option String) :
    (session.step answer).session.Blames := by
  have hreacts := session.reacts_step answer
  generalize session.step answer = turn at *
  cases hreacts with
  | idle => exact h
  | exceeded => exact fun _ _ _ hphase => by cases hphase
  | started => exact blames_of_failure? (Phase.failure?_following _)
  | accepted => exact blames_of_failure? (Phase.failure?_following _)
  | executed hphase hlimit hexecutes =>
      cases hexecutes with
      | missing => exact fun _ _ _ hphase => by cases hphase
      | ended | asked => exact blames_of_failure? rfl
      | passed | ran | branched => exact blames_of_failure? (Phase.failure?_following _)
      | faulted hnode hbody hwritten hresult =>
          obtain ⟨-, rfl⟩ := Graph.mem_nodes_of_node? hnode
          intro place label fault hfailed
          cases hfailed
          refine ⟨_, _, ?_, hnode, rfl, .statements hbody hwritten hresult⟩
          change session.phase.node? = _
          rw [hphase, Phase.node?]
      | unjudged hnode hkind hwritten hresult =>
          obtain ⟨-, rfl⟩ := Graph.mem_nodes_of_node? hnode
          intro place label fault hfailed
          cases hfailed
          refine ⟨_, _, ?_, hnode, rfl, .condition hkind hwritten hresult⟩
          change session.phase.node? = _
          rw [hphase, Phase.node?]

end Session

/-- A run that fails is at the node with the fault. -/
theorem Run.blames {graph : Graph} {limit : Nat} {moments : List Moment} {session : Session}
    (h : Run graph limit moments session) : session.Blames := by
  induction h with
  | new => exact Session.blames_of_failure? rfl
  | step _ answer _ ih => exact Session.blames_step ih answer

theorem Graph.reading_ne_unreadable {graph : Graph} (h : graph.unreadable = []) {node : Node}
    (hnode : node ∈ graph.nodes) (error : SyntaxError) : node.reading ≠ .unreadable error := by
  rintro hreading
  have hnone := List.filterMap_eq_nil_iff.mp h node hnode
  rw [hreading] at hnone
  cases hnone

/-- **Reading ahead.** A body that is read as a whole does what its statements do, and counts them
unless one has a fault. Any other body does what the statements before the first unreadable one do,
and if they have no fault it stops with the complaint that reading it ahead comes to. So a run that
stops with such a complaint is at a node about which preflight makes the same one, and there is no
such run of a graph about which preflight makes none. -/
theorem run_meets_what_was_read_ahead (environment : Environment) (body : String) (graph : Graph)
    (limit : Nat) (calls : List Call) :
    let session := (Session.new graph limit).afterAll calls
    (∀ statements, Statement.parseAll body = .ok statements →
      Body.exec environment body
          = (Body.execAll environment statements).map (fun _ => statements.length)
        ∧ ((Body.exec environment body).result = .ok statements.length
          ↔ (Body.execAll environment statements).result = .ok ()))
    ∧ (∀ error, Statement.parseAll body = .error error →
      ∃ readable, Statement.BreaksOff body readable error
        ∧ Body.exec environment body = (Body.execAll environment readable).andThen (fun left _ =>
            .stopped left (.unreadable error))
        ∧ ∀ other, (Body.execAll environment readable).result ≠ .error (.unreadable other))
    ∧ (∀ label error, session.registers.error = some (.evaluation label (.unreadable error)) →
      ∃ node ∈ graph.nodes, session.registers.current = some node.id
        ∧ label = Session.nodeLabel node ∧ node.reading = .unreadable error
        ∧ node.Unreadable error)
    ∧ (graph.unreadable = [] → ∀ label error,
      session.registers.error ≠ some (.evaluation label (.unreadable error))) := by
  intro session
  have hrun := run_countedSteps graph limit calls
  have hblamed : ∀ label error,
      session.registers.error = some (.evaluation label (.unreadable error)) →
      ∃ node ∈ graph.nodes, session.registers.current = some node.id
        ∧ label = Session.nodeLabel node ∧ node.reading = .unreadable error
        ∧ node.Unreadable error := by
    intro label error herror
    obtain ⟨place, hphase⟩ := Phase.eq_failed_of_failure? herror
    obtain ⟨node, left, hplace, hnode, hlabel, hfaults⟩ := hrun.blames place label _ hphase
    obtain ⟨hreading, hunreadable⟩ := hfaults.reading
    obtain ⟨-, hgraph, -⟩ := hrun.valid
    rw [hgraph] at hnode
    have hcurrent : session.registers.current = some node.id := by
      rw [Session.registers, hphase, Phase.node?, hplace]
    exact ⟨node, (Graph.mem_nodes_of_node? hnode).1, hcurrent, hlabel, hreading, hunreadable⟩
  refine ⟨fun statements hparse => ?_, fun error hparse => ?_, hblamed,
    fun hreadable label error herror => ?_⟩
  · rw [Body.exec_of_parseAll hparse]
    refine ⟨rfl, Execution.map_eq_ok_iff.trans ⟨?_, fun hresult => ⟨(), hresult, rfl⟩⟩⟩
    rintro ⟨_, hresult, -⟩
    exact hresult
  · obtain ⟨readable, hbreaks⟩ := Statement.breaksOff_of_parseAll hparse
    exact ⟨readable, hbreaks, Body.exec_of_breaksOff hbreaks environment,
      Body.execAll_ne_unreadable environment readable⟩
  · obtain ⟨node, hnode, -, -, hreading, -⟩ := hblamed label error herror
    exact Graph.reading_ne_unreadable hreadable hnode error hreading

/-- A statement without a value stops a run that has executed the statement before it. -/
theorem run_meets_what_was_read_ahead_missing_value :
    let graph : Graph :=
      ⟨[⟨0, .start, "", ""⟩, ⟨1, .process, "sums", "x = true; y = ; z = 2"⟩], [⟨0, 1, none⟩],
        ⟨0, .start, "", ""⟩, by decide, by decide, by decide⟩
    let session := (Session.new graph 9).afterAll [.step none, .step none]
    session.registers.error
        = some (.evaluation "sums" (.unreadable ⟨14, .expected .expression .finish⟩))
      ∧ session.environment.get? "x" = some (.bool true)
      ∧ ∃ node ∈ graph.nodes, node.reading = .unreadable ⟨14, .expected .expression .finish⟩ := by
  intro graph session
  have herror : session.registers.error
      = some (.evaluation "sums" (.unreadable ⟨14, .expected .expression .finish⟩)) := by
    decide +kernel
  obtain ⟨node, hnode, -, -, hreading, -⟩ :=
    (run_meets_what_was_read_ahead .empty "" graph 9 [.step none, .step none]).2.2.1 _ _ herror
  exact ⟨herror, by decide +kernel, node, hnode, hreading⟩

end Flowchart
