import Flowchart.Proofs.ReadingAhead
import Flowchart.Proofs.Scanning

/-!
# Which variables get a value

A run binds a variable only where preflight sees that it may: by the answer to a question, or by a
statement of a body that is read as a whole. A body that is read in part may bind others before it
stops, but the run stops with it.
-/

namespace Flowchart

namespace Environment

def Binds (environment : Environment) (name : String) : Prop :=
  ∃ value, environment.get? name = some value

theorem not_binds_empty (name : String) : ¬ empty.Binds name := by
  rintro ⟨value, h⟩
  cases h

theorem binds_set {environment : Environment} {name other : String} {value : Value} :
    (environment.set name value).Binds other ↔ other = name ∨ environment.Binds other := by
  unfold Binds
  rw [get?_set]
  by_cases h : other = name <;> simp [h]

end Environment

/-! ### What statements bind -/

/-- A statement gives a value to nothing but its target. -/
theorem Statement.binds_of_run {environment : Environment} {statement : Statement} {name : String}
    (h : (statement.run environment).environment.Binds name) :
    environment.Binds name ∨ statement.target? = some name := by
  cases hresult : (statement.exec environment).result with
  | error fault =>
      rw [run_of_error hresult] at h
      exact .inl h
  | ok changed =>
      rw [run_of_ok hresult] at h
      obtain ⟨trace, -, hchanged⟩ := exec_eq_ok_iff.mp hresult
      subst hchanged
      cases htarget : statement.target? with
      | none =>
          rw [htarget] at h
          exact .inl h
      | some target =>
          rw [htarget] at h
          rcases Environment.binds_set.mp h with rfl | h
          · exact .inr rfl
          · exact .inl h

/-- Statements give a value to nothing but their targets. -/
theorem Body.binds_of_execAll {environment : Environment} {statements : List Statement}
    {name : String} (h : (execAll environment statements).environment.Binds name) :
    environment.Binds name ∨ ∃ statement ∈ statements, statement.target? = some name := by
  induction statements generalizing environment with
  | nil => exact .inl h
  | cons statement rest ih =>
      have hrun : (statement.run environment).environment.Binds name →
          environment.Binds name ∨ ∃ other ∈ statement :: rest, other.target? = some name := by
        intro hbinds
        refine (Statement.binds_of_run hbinds).imp_right fun htarget => ?_
        exact ⟨statement, List.mem_cons_self, htarget⟩
      rw [execAll] at h
      cases hresult : (statement.run environment).result with
      | error fault =>
          rw [Execution.andThen_of_error hresult] at h
          exact hrun h
      | ok _ =>
          rw [Execution.andThen_of_ok hresult] at h
          rcases ih h with h | ⟨other, hmem, htarget⟩
          · exact hrun h
          · exact .inr ⟨other, List.mem_cons_of_mem _ hmem, htarget⟩

/-- A body that is executed to its end was read as a whole, and binds what its statements do. -/
theorem Body.binds_of_exec {environment : Environment} {body : String} {count : Nat} {name : String}
    (hresult : (exec environment body).result = .ok count)
    (h : (exec environment body).environment.Binds name) :
    environment.Binds name ∨ ∃ statements, Statement.parseAll body = .ok statements
      ∧ ∃ statement ∈ statements, statement.target? = some name := by
  cases hparse : Statement.parseAll body with
  | error error =>
      -- A body that is not read as a whole ends with a fault, whatever it has bound by then.
      obtain ⟨readable, hbreaks⟩ := Statement.breaksOff_of_parseAll hparse
      rw [exec_of_breaksOff hbreaks] at hresult
      obtain ⟨_, -, hstopped⟩ := Execution.andThen_eq_ok_iff.mp hresult
      cases hstopped
  | ok statements =>
      rw [exec_of_parseAll hparse] at h
      exact (binds_of_execAll h).imp_right fun htarget => ⟨statements, rfl, htarget⟩

/-! ### What preflight sees -/

/-- Some node of the graph gives the variable a value: by the answer to its question, or by a
statement of its body, which is read as a whole. -/
inductive Graph.Assigns (graph : Graph) (name : String) : Prop
  | answer {node question} (hnode : node ∈ graph.nodes) (hkind : node.kind = .io)
      (hquestion : Directive.read? node.body = some question)
      (hname : question.variableName = name)
  | statement {node statements statement} (hnode : node ∈ graph.nodes)
      (hbody : node.RunsStatements) (hparse : Statement.parseAll node.body = .ok statements)
      (hmem : statement ∈ statements) (htarget : statement.target? = some name)

theorem Statement.parseAll_of_blank {body : String} (hblank : Text.isAllBlank body) :
    parseAll body = .ok [] := by
  have hskip : body.toList.dropWhile Text.isBlank = [] := Text.skipBlanks_of_isAllBlank hblank
  rw [parseAll, split, Token.scan, Token.scanFrom_eq, hskip]
  rfl

/-- The names that are collected are those that the graph gives a value. -/
theorem Graph.mem_assigned_iff {graph : Graph} {name : String} :
    name ∈ graph.assigned ↔ graph.Assigns name := by
  unfold assigned
  rw [List.mem_flatMap]
  constructor
  · rintro ⟨node, hnode, htarget⟩
    have hwritten : ¬ Text.isAllBlank node.body := by
      intro hblank
      rw [Node.reading, if_pos hblank] at htarget
      cases htarget
    have hstatements : node.RunsStatements → graph.Assigns name := by
      intro hbody
      rw [Node.reading_of_runsStatements hbody hwritten, Reading.ofStatements] at htarget
      cases hparse : Statement.parseAll node.body with
      | error error =>
          rw [hparse] at htarget
          cases htarget
      | ok statements =>
          rw [hparse] at htarget
          obtain ⟨statement, hmem, hname⟩ := List.mem_filterMap.mp htarget
          exact .statement hnode hbody hparse hmem hname
    cases hkind : node.kind with
    | start | finish | connector =>
        rw [Node.reading, if_neg hwritten, hkind] at htarget
        cases htarget
    | decision =>
        rw [Node.reading_of_decision hkind hwritten, Reading.ofCondition] at htarget
        cases hparse : Expr.parse node.body <;> rw [hparse] at htarget <;> cases htarget
    | process => exact hstatements (.inl hkind)
    | io =>
        cases hquestion : Directive.read? node.body with
        | none => exact hstatements (.inr ⟨hkind, hquestion⟩)
        | some question =>
            rw [Node.reading_of_question hkind hquestion] at htarget
            exact .answer hnode hkind hquestion (List.mem_singleton.mp htarget).symm
  · intro h
    cases h with
    | answer hnode hkind hquestion hname =>
        refine ⟨_, hnode, ?_⟩
        rw [Node.reading_of_question hkind hquestion]
        exact List.mem_singleton.mpr hname.symm
    | @statement node _ _ hnode hbody hparse hmem htarget =>
        have hwritten : ¬ Text.isAllBlank node.body := by
          intro hblank
          rw [Statement.parseAll_of_blank hblank] at hparse
          cases hparse
          cases hmem
        refine ⟨node, hnode, ?_⟩
        rw [Node.reading_of_runsStatements hbody hwritten, Reading.ofStatements, hparse]
        exact List.mem_filterMap.mpr ⟨_, hmem, htarget⟩

theorem Graph.not_mem_assigned_of_readUnassigned {graph : Graph} {id : NodeId} {name : String}
    (h : (id, name) ∈ graph.readUnassigned) : name ∉ graph.assigned := by
  obtain ⟨node, -, hread⟩ := List.mem_flatMap.mp h
  obtain ⟨read, -, hreported⟩ := List.mem_filterMap.mp hread
  by_cases hassigned : read ∈ graph.assigned
  · rw [if_pos hassigned] at hreported
    cases hreported
  · rw [if_neg hassigned] at hreported
    cases hreported
    exact hassigned

/-! ### What a run binds -/

namespace Session

/-- Unless the run was broken off, its variables are among those that the graph gives a value. -/
def Confined (session : Session) : Prop :=
  session.phase.failure? = none →
    ∀ name, session.environment.Binds name → session.graph.Assigns name

variable {session : Session}

/-- Executing a node gives no variable a value but those of the graph. -/
theorem Executes.confined {id : NodeId} {turn : Turn} (hexecutes : session.Executes id turn)
    (h : ∀ name, session.environment.Binds name → session.graph.Assigns name) :
    turn.session.Confined := by
  cases hexecutes with
  | missing | faulted | unjudged => exact fun hactive => by cases hactive
  | ended | passed | asked | branched => exact fun _ => h
  | ran hnode hbody hwritten hresult =>
      intro _ name hbinds
      rcases Body.binds_of_exec hresult hbinds with hbinds | ⟨statements, hparse, hassigns⟩
      · exact h name hbinds
      · obtain ⟨statement, hmem, htarget⟩ := hassigns
        exact .statement (Graph.mem_nodes_of_node? hnode).1 hbody hparse hmem htarget

/-- A session asks only the question of the node that it is at. -/
theorem Valid.assigns_answer (h : session.Valid) {id : NodeId} {question : Directive}
    (hphase : session.phase = .waiting id question) :
    session.graph.Assigns question.variableName := by
  rw [Valid, hphase] at h
  obtain ⟨-, -, node, hnode, hkind, hquestion⟩ := h
  exact .answer (Graph.mem_nodes_of_node? hnode).1 hkind hquestion rfl

/-- One step gives no variable a value but those of the graph. -/
theorem Valid.confined_step (hvalid : session.Valid) (h : session.Confined)
    (answer : Option String) : (session.step answer).session.Confined := by
  have hreacts := session.reacts_step answer
  generalize session.step answer = turn at *
  cases hreacts with
  | idle => exact h
  | exceeded => exact fun hactive => by cases hactive
  | started hphase => exact fun _ => h (by rw [hphase]; rfl)
  | executed hphase hlimit hexecutes =>
      exact hexecutes.confined (h (by rw [hphase]; rfl))
  | accepted hphase =>
      intro _ name hbinds
      rcases Environment.binds_set.mp hbinds with rfl | hbinds
      · exact hvalid.assigns_answer hphase
      · exact h (by rw [hphase]; rfl) name hbinds

end Session

/-- A run gives no variable a value but those of the graph. -/
theorem Run.confined {graph : Graph} {limit : Nat} {moments : List Moment} {session : Session}
    (h : Run graph limit moments session) : session.Confined := by
  induction h with
  | new => exact fun _ name hbinds => absurd hbinds (Environment.not_binds_empty name)
  | step hrun answer _ ih => exact hrun.valid.1.confined_step ih answer

/-- **Only what is assigned somewhere is bound.** Unless a run was broken off, each of its variables
is that of a question or the target of a statement, in a body that is read as a whole. Preflight
collects just these. So a variable that it reports has no value when a node comes to be executed. -/
theorem bound_only_if_assigned (graph : Graph) (limit : Nat) (calls : List Call) :
    let session := (Session.new graph limit).afterAll calls
    (session.phase.failure? = none →
      ∀ name, session.environment.Binds name → graph.Assigns name)
    ∧ (∀ name, name ∈ graph.assigned ↔ graph.Assigns name)
    ∧ (session.phase.failure? = none →
      ∀ id name, (id, name) ∈ graph.readUnassigned → session.environment.get? name = none) := by
  intro session
  have hrun := run_countedSteps graph limit calls
  obtain ⟨-, hgraph, -⟩ := hrun.valid
  have hbound : session.phase.failure? = none →
      ∀ name, session.environment.Binds name → graph.Assigns name := by
    intro hactive
    rw [← hgraph]
    exact hrun.confined hactive
  refine ⟨hbound, fun name => Graph.mem_assigned_iff, fun hactive id name hreported => ?_⟩
  have hnot := Graph.not_mem_assigned_of_readUnassigned hreported
  refine Option.eq_none_iff_forall_ne_some.mpr fun value hvalue => ?_
  exact hnot (Graph.mem_assigned_iff.mpr (hbound hactive name ⟨value, hvalue⟩))

/-- A body that is read in part gives `w` a value and breaks the run off; until then `w`, which a
decision reads, is reported and has none. -/
theorem bound_only_if_assigned_half_read_body :
    let graph : Graph :=
      ⟨[⟨0, .start, "", ""⟩, ⟨1, .io, "", "READ(x)"⟩, ⟨2, .process, "", "w = x; y ="⟩,
        ⟨3, .decision, "", "w"⟩],
        [⟨0, 1, none⟩, ⟨1, 2, none⟩, ⟨2, 3, none⟩],
        ⟨0, .start, "", ""⟩, by decide, by decide, by decide⟩
    let session := (Session.new graph 9).afterAll [.step none, .step none, .step (some "yes")]
    session.phase = .running 2
      ∧ session.environment.get? "w" = none
      ∧ graph.Assigns "x" ∧ session.environment.get? "x" = some (.text "yes")
      ∧ (session.step none).session.environment.get? "w" = some (.text "yes") := by
  intro graph session
  have hphase : session.phase = .running 2 := by decide +kernel
  have hactive : session.phase.failure? = none := by rw [hphase]; rfl
  have hvalue : session.environment.get? "x" = some (.text "yes") := by decide +kernel
  obtain ⟨hbound, -, hunbound⟩ :=
    bound_only_if_assigned graph 9 [.step none, .step none, .step (some "yes")]
  exact ⟨hphase, hunbound hactive 3 "w" (by decide +kernel), hbound hactive "x" ⟨_, hvalue⟩,
    hvalue, by decide +kernel⟩

end Flowchart
