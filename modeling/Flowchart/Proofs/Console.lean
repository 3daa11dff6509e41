import Flowchart.Proofs.Breakdown

/-!
# Lines on their way to the console

A turn hands over its lines as a list. A console gets them one at a time, in the midst of an
evaluation, and each goes to the log of the session and to a mirror of it, if one is attached. Here
evaluation, execution and the acts of a session are told with a console in hand, which every call of
`print` and every act emits to.

What arrives is what the turn says, on the log and at the mirror alike, and each outcome accounts
for its lines: they are its marker, its prompt, its answer, or those of the calls of `print` in the
body of its node.
-/

namespace Flowchart

/-! ### Bodies with a console -/

/-- The log of a session, and a mirror of it if one is attached. A mirror is whatever it makes of
the lines that it receives. -/
structure Console (σ : Type) where
  log : List String
  mirror : Option σ

structure Surroundings (σ : Type) where
  environment : Environment
  console : Console σ

abbrev Emitting (σ : Type) := ExceptT Fault (StateM (Surroundings σ))

section Emitting

variable {σ : Type} (receive : σ → String → σ)

def Console.emit (console : Console σ) (line : String) : Console σ :=
  ⟨console.log ++ [line], console.mirror.map (receive · line)⟩

def Console.emitAll (console : Console σ) (lines : List String) : Console σ :=
  lines.foldl (Console.emit receive) console

namespace Emitting

def emit (line : String) : Emitting σ Unit :=
  modify fun around => { around with console := around.console.emit receive line }

def ofExcept {α : Type} : Except Fault α → Emitting σ α
  | .ok a => pure a
  | .error fault => throw fault

end Emitting

def Builtin.call (function : Builtin) (arguments : List Value) : Emitting σ Value :=
  match function, arguments with
  | print, arguments => do
    Emitting.emit receive (" ".intercalate (arguments.map Value.display))
    return arguments.headD (.text "")
  | str, [only] => return .text only.display
  | str, arguments => throw (.argumentCount str 1 arguments.length)

mutual

def Expr.evaluate : Expr → Emitting σ Trace
  | literal value => return .literal value
  | var name => do
    match (← get).environment.get? name with
    | some value => return .var name value
    | none => throw (.undefinedVariable name)
  | unary op operand => do
    let child ← operand.evaluate
    let outcome ← Emitting.ofExcept (op.apply child.outcome)
    return .unary op.symbol child outcome
  | binary op left right => do
    let first ← left.evaluate
    match op.decidedBy? first.outcome with
    | some outcome => return .binary op.symbol first .skipped outcome
    | none => do
      let second ← right.evaluate
      let outcome ← Emitting.ofExcept (op.apply first.outcome second.outcome)
      return .binary op.symbol first second outcome
  | call function arguments => do
    let traces ← Expr.evaluateAll arguments
    let outcome ← function.call receive (traces.map Trace.outcome)
    return .call function.name traces outcome

def Expr.evaluateAll : List Expr → Emitting σ (List Trace)
  | [] => return []
  | argument :: rest => do
    let first ← argument.evaluate
    let others ← Expr.evaluateAll rest
    return first :: others

end

def Statement.execute (statement : Statement) : Emitting σ Unit := do
  let trace ← statement.expr.evaluate receive
  modify fun around =>
    { around with environment := statement.store around.environment trace.outcome }

namespace Body

def executeChunks : List (List Token) → Emitting σ Unit
  | [] => return ()
  | chunk :: rest => do
    let statement ← Emitting.ofExcept ((Statement.ofTokens chunk).mapError .unreadable)
    statement.execute receive
    executeChunks rest

def execute (body : String) : Emitting σ Nat := do
  let chunks ← Emitting.ofExcept ((Statement.split body).mapError .unreadable)
  executeChunks receive chunks
  return chunks.length

def judge (body : String) : Emitting σ Trace := do
  let expr ← Emitting.ofExcept ((Expr.parse body).mapError .unreadable)
  expr.evaluate receive

end Body

end Emitting

/-! ### What bodies emit -/

section Carries

variable {σ : Type} {receive : σ → String → σ} {α β : Type} {environment : Environment}

theorem Console.emitAll_eq (console : Console σ) (lines : List String) :
    console.emitAll receive lines
      = ⟨console.log ++ lines, console.mirror.map fun state => lines.foldl receive state⟩ := by
  induction lines generalizing console with
  | nil =>
      obtain ⟨log, mirror⟩ := console
      simp [emitAll]
  | cons line rest ih =>
      rw [emitAll, List.foldl_cons, ← emitAll, ih, emit]
      simp [Function.comp_def]

theorem Console.emitAll_append (console : Console σ) (front back : List String) :
    console.emitAll receive (front ++ back)
      = (console.emitAll receive front).emitAll receive back := List.foldl_append ..

/-- In this environment and on any console, the computation does what the execution says. -/
def Emitting.Carries (receive : σ → String → σ) (act : Emitting σ α) (environment : Environment)
    (run : Execution α) : Prop :=
  ∀ console, act.run ⟨environment, console⟩
    = (run.result, ⟨run.environment, console.emitAll receive run.lines⟩)

def Printing.within (printing : Printing α) (environment : Environment) : Execution α :=
  ⟨environment, printing.lines, printing.result⟩

theorem Execution.map_eq_andThen (run : Execution α) (f : α → β) :
    run.map f = run.andThen fun environment a => ⟨environment, [], .ok (f a)⟩ := by
  cases hresult : run.result with
  | error fault =>
      rw [andThen_of_error hresult, map, hresult]
      rfl
  | ok a =>
      rw [andThen_of_ok hresult, map, hresult, preceded, List.append_nil]
      rfl

namespace Emitting

theorem carries_pure (a : α) :
    Carries receive (pure a) environment ⟨environment, [], .ok a⟩ := fun _ => rfl

theorem carries_throw (fault : Fault) :
    Carries receive (throw fault) environment (.stopped environment fault : Execution α) :=
  fun _ => rfl

theorem carries_ofExcept (result : Except Fault α) :
    Carries receive (ofExcept result) environment ⟨environment, [], result⟩ := by
  cases result with
  | ok a => exact carries_pure a
  | error fault => exact carries_throw fault

/-- What two computations do one after the other is what their executions say in turn. -/
theorem Carries.bind {act : Emitting σ α} {next : α → Emitting σ β} {run : Execution α}
    {cont : Environment → α → Execution β} (h : Carries receive act environment run)
    (hnext : ∀ a, run.result = .ok a →
      Carries receive (next a) run.environment (cont run.environment a)) :
    Carries receive (act >>= next) environment (run.andThen cont) := by
  intro console
  have hrun : (act >>= next).run ⟨environment, console⟩
      = ExceptT.bindCont next (act.run ⟨environment, console⟩).1
        (act.run ⟨environment, console⟩).2 := rfl
  rw [hrun, h]
  cases hresult : run.result with
  | error fault =>
      rw [Execution.andThen_of_error hresult]
      rfl
  | ok a =>
      -- The second computation finds the console as the first has left it.
      rw [Execution.andThen_of_ok hresult, Execution.preceded, Console.emitAll_append]
      exact hnext a hresult _

theorem Carries.bind_printing {act : Emitting σ α} {next : α → Emitting σ β} {first : Printing α}
    {cont : α → Printing β} (h : Carries receive act environment (first.within environment))
    (hnext : ∀ a, Carries receive (next a) environment ((cont a).within environment)) :
    Carries receive (act >>= next) environment ((first >>= cont).within environment) := by
  have hwithin : (first >>= cont).within environment
      = (first.within environment).andThen fun _ a => (cont a).within environment := by
    obtain ⟨lines, result⟩ := first
    cases result <;> rfl
  rw [hwithin]
  exact h.bind fun a _ => hnext a

end Emitting

open Emitting (Carries carries_pure carries_throw carries_ofExcept)

/-- A call emits what it prints, line by line. -/
theorem Builtin.carries_call (function : Builtin) (arguments : List Value) :
    Carries receive (function.call receive arguments) environment
      ((function.apply arguments).within environment) := by
  cases function with
  | print => exact fun _ => rfl
  | str =>
      match arguments with
      | [] | [_] | _ :: _ :: _ => exact fun _ => rfl

mutual

/-- An expression emits what its evaluation prints. -/
theorem Expr.carries_evaluate (environment : Environment) :
    ∀ expr : Expr, Carries receive (expr.evaluate receive) environment
      ((expr.eval environment).within environment)
  | .literal value => carries_pure _
  | .var name => by
      intro console
      rw [evaluate, eval]
      change (match environment.get? name with
        | some value => return .var name value
        | none => throw (.undefinedVariable name) : Emitting σ Trace).run
          ⟨environment, console⟩ = _
      cases environment.get? name <;> rfl
  | .unary op operand => by
      rw [evaluate, eval]
      refine (carries_evaluate environment operand).bind_printing fun child => ?_
      exact (carries_ofExcept _).bind_printing fun _ => carries_pure _
  | .binary op left right => by
      rw [evaluate, eval]
      refine (carries_evaluate environment left).bind_printing fun first => ?_
      cases op.decidedBy? first.outcome with
      | some outcome => exact carries_pure _
      | none =>
          refine (carries_evaluate environment right).bind_printing fun second => ?_
          exact (carries_ofExcept _).bind_printing fun _ => carries_pure _
  | .call function arguments => by
      rw [evaluate, eval]
      refine (carries_evaluateAll environment arguments).bind_printing fun traces => ?_
      exact (function.carries_call _).bind_printing fun _ => carries_pure _

theorem Expr.carries_evaluateAll (environment : Environment) :
    ∀ arguments : List Expr, Carries receive (evaluateAll receive arguments) environment
      ((evalAll environment arguments).within environment)
  | [] => carries_pure _
  | argument :: rest => by
      rw [evaluateAll, evalAll]
      refine (carries_evaluate environment argument).bind_printing fun first => ?_
      exact (carries_evaluateAll environment rest).bind_printing fun _ => carries_pure _

end

theorem Statement.run_eq_andThen (environment : Environment) (statement : Statement) :
    statement.run environment
      = ((statement.expr.eval environment).within environment).andThen fun environment trace =>
        ⟨statement.store environment trace.outcome, [], .ok ()⟩ := by
  rcases statement.expr.records_or_faults environment with ⟨trace, h⟩ | ⟨lines, fault, h⟩
  · rw [run_of_records h, h.eval_eq]
    exact congrArg (Execution.mk _ · _) (List.append_nil _).symm
  · rw [run_of_faults h, h.eval_eq]
    rfl

/-- A statement emits what its execution prints, and changes the environment in the same way. -/
theorem Statement.carries_execute (environment : Environment) (statement : Statement) :
    Carries receive (statement.execute receive) environment (statement.run environment) := by
  rw [run_eq_andThen]
  exact (statement.expr.carries_evaluate environment).bind fun _ _ _ => rfl

namespace Body

/-- The chunks of a body emit what their execution prints. -/
theorem carries_executeChunks (environment : Environment) (chunks : List (List Token)) :
    Carries receive (executeChunks receive chunks) environment (execChunks environment chunks) := by
  induction chunks generalizing environment with
  | nil => exact carries_pure ()
  | cons chunk rest ih =>
      cases hread : Statement.ofTokens chunk with
      | error error =>
          rw [execChunks_of_unreadable hread, executeChunks, hread]
          exact fun _ => rfl
      | ok statement =>
          rw [execChunks_of_readable hread, executeChunks, hread]
          exact (statement.carries_execute environment).bind fun _ _ => ih _

/-- A body emits what its execution prints. -/
theorem carries_execute (environment : Environment) (body : String) :
    Carries receive (execute receive body) environment (exec environment body) := by
  cases hsplit : Statement.split body with
  | error error =>
      rw [exec_of_not_split hsplit, execute, hsplit]
      exact fun _ => rfl
  | ok chunks =>
      rw [exec_of_split hsplit, execute, hsplit, Execution.map_eq_andThen]
      exact (carries_executeChunks environment chunks).bind fun _ _ => carries_pure _

theorem carries_judge (environment : Environment) (body : String) :
    Carries receive (judge receive body) environment
      ((condition environment body).within environment) := by
  rw [judge, condition]
  cases Expr.parse body with
  | error error => exact fun _ => rfl
  | ok expr => exact expr.carries_evaluate environment

end Body

end Carries

/-! ### Sessions with a console -/

structure Observed (σ : Type) where
  session : Session
  mirror : Option σ

namespace Observed

section Acts

variable {σ : Type} (receive : σ → String → σ)

abbrev Acting (σ : Type) := StateM (Observed σ)

def console (observed : Observed σ) : Console σ := ⟨observed.session.log, observed.mirror⟩

def emit (line : String) : Acting σ Unit :=
  modify fun observed =>
    let console := observed.console.emit receive line
    ⟨{ observed.session with log := console.log }, console.mirror⟩

def enter (phase : Phase) : Acting σ Unit :=
  modify fun observed => { observed with session := { observed.session with phase } }

def run {α : Type} (act : Emitting σ α) : Acting σ (Except Fault α) := fun observed =>
  let (result, around) := act.run ⟨observed.session.environment, observed.console⟩
  let session :=
    { observed.session with environment := around.environment, log := around.console.log }
  (result, ⟨session, around.console.mirror⟩)

def fail (failure : Failure) : Acting σ Outcome := do
  enter (.failed (← get).session.phase.node? failure)
  return .failed failure

def start : Acting σ Outcome := do
  let graph := (← get).session.graph
  emit receive startMarker
  let next := graph.successor? graph.entry.id
  enter (.following next)
  return .started graph.entry.id next

def accept (node : NodeId) (question : Directive) (answer : String) : Acting σ Outcome := do
  let value := Value.ofInput answer
  modify fun observed =>
    let environment := observed.session.environment.set question.variableName value
    { observed with session := { observed.session with environment } }
  emit receive ("> " ++ answer)
  let next := (← get).session.graph.successor? node
  enter (.following next)
  return .resumed question.variableName value next

def advance (node : Node) : Acting σ Outcome := do
  let next := (← get).session.graph.successor? node.id
  enter (.following next)
  return .advanced node.id next

def runBody (node : Node) : Acting σ Outcome := do
  if Text.isAllBlank node.body then advance node
  else
    match ← run (Body.execute receive node.body) with
    | .ok _ => advance node
    | .error fault => fail (.evaluation (Session.nodeLabel node) fault)

def follow (node : Node) (outcome : Bool) (reason : String) : Acting σ Outcome := do
  let choice := Session.choose ((← get).session.graph.outgoing node.id) outcome
  let next := choice.map (·.1.target)
  enter (.following next)
  return .branched node.id outcome (choice.bind (·.1.tag)) (choice.any (·.2)) next reason

def branch (node : Node) : Acting σ Outcome := do
  if Text.isAllBlank node.body then follow node false "empty condition"
  else
    match ← run (Body.judge receive node.body) with
    | .ok trace => follow node trace.outcome.isTruthy trace.reason
    | .error fault => fail (.evaluation (Session.nodeLabel node) fault)

def execute (id : NodeId) : Acting σ Outcome := do
  match (← get).session.graph.node? id with
  | none => fail (.brokenLink id)
  | some node =>
    match node.kind with
    | .start | .finish => do
      emit receive endMarker
      enter (.completed (some id))
      return .finished id
    | .connector => advance node
    | .process => runBody receive node
    | .decision => branch receive node
    | .io =>
      match Directive.read? node.body with
      | some question => do
        emit receive question.prompt
        enter (.waiting id question)
        return .suspended id question.prompt
      | none => runBody receive node

def counted (act : Acting σ Outcome) : Acting σ Outcome := do
  modify fun observed => { observed with session := observed.session.count }
  let session := (← get).session
  if session.limit < session.steps then fail (.stepLimit session.limit) else act

def step (answer : Option String) : Acting σ Outcome := do
  match (← get).session.phase, answer with
  | .completed _, _ | .failed _ _, _ | .waiting _ _, none => return .idle
  | .notStarted, _ => counted (start receive)
  | .running node, _ => counted (execute receive node)
  | .waiting node question, some answer => counted (accept receive node question answer)

/-- The session and its log are as new; what a mirror has received stays received. -/
def reset (observed : Observed σ) : Observed σ :=
  { observed with session := observed.session.reset }

def after (observed : Observed σ) : Call → Observed σ
  | .step answer => (step receive answer observed).2
  | .reset => observed.reset

def afterAll (observed : Observed σ) (calls : List Call) : Observed σ :=
  calls.foldl (after receive) observed

end Acts

/-! ### What sessions emit -/

end Observed

/-- A step adds its lines to the log. -/
theorem Session.log_step (session : Session) (answer : Option String) :
    (session.step answer).session.log = session.log ++ (session.step answer).lines := by
  have hreacts := session.reacts_step answer
  generalize session.step answer = turn at *
  cases hreacts with
  | idle => exact (List.append_nil _).symm
  | exceeded | started | accepted => rfl
  | executed _ _ hexecutes => cases hexecutes <;> rfl

namespace Observed

section Turns

variable {σ : Type} {receive : σ → String → σ} {session : Session} {node : Node} {turn : Turn}

/-- With any mirror the act comes to this turn, and the mirror receives its lines. -/
def Turns (receive : σ → String → σ) (act : Acting σ Outcome) (session : Session) (turn : Turn) :
    Prop :=
  ∀ mirror, act ⟨session, mirror⟩
    = (turn.outcome, ⟨turn.session, mirror.map fun state => turn.lines.foldl receive state⟩)

def left (receive : σ → String → σ) (session : Session) (mirror : Option σ) (lines : List String)
    (environment : Environment) : Observed σ :=
  ⟨{ session with environment, log := session.log ++ lines },
    mirror.map fun state => lines.foldl receive state⟩

theorem left_nil (receive : σ → String → σ) (session : Session) (mirror : Option σ) :
    left receive session mirror [] session.environment = ⟨session, mirror⟩ := by
  obtain ⟨graph, limit, phase, environment, log, steps⟩ := session
  simp [left]

theorem bind_apply {α β : Type} (act : Acting σ α) (next : α → Acting σ β) (observed : Observed σ) :
    (act >>= next) observed = next (act observed).1 (act observed).2 := rfl

theorem get_bind {α : Type} (next : Observed σ → Acting σ α) (observed : Observed σ) :
    (get >>= next) observed = next observed observed := rfl

/-- Run with the console of a session, a computation leaves its execution's environment, log and
mirror. -/
theorem run_eq {α : Type} {act : Emitting σ α} {execution : Execution α}
    (h : act.Carries receive session.environment execution) (mirror : Option σ) :
    run act ⟨session, mirror⟩
      = (execution.result, left receive session mirror execution.lines execution.environment) := by
  rw [run, console, h, Console.emitAll_eq]
  rfl

theorem turns_start (session : Session) : Turns receive (start receive) session session.start :=
  fun _ => rfl

theorem turns_accept (session : Session) (id : NodeId) (question : Directive) (answer : String) :
    Turns receive (accept receive id question answer) session (session.accept id question answer) :=
  fun _ => rfl

theorem turns_fail (session : Session) (failure : Failure) :
    Turns receive (fail failure) session (session.fail failure [] session.environment) := by
  intro mirror
  rw [← left_nil receive]
  rfl

theorem turns_advance (session : Session) (node : Node) :
    Turns receive (advance node) session (session.advance node [] session.environment) := by
  intro mirror
  rw [← left_nil receive]
  rfl

theorem turns_runBody (session : Session) (node : Node) :
    Turns receive (runBody receive node) session (session.runBody node) := by
  unfold runBody Session.runBody
  by_cases hblank : Text.isAllBlank node.body
  · rw [if_pos hblank, if_pos hblank]
    exact turns_advance session node
  · rw [if_neg hblank, if_neg hblank]
    intro mirror
    rw [bind_apply, run_eq (Body.carries_execute session.environment node.body)]
    cases hresult : (Body.exec session.environment node.body).result with
    | ok count =>
        simp only [hresult]
        rfl
    | error fault =>
        simp only [hresult]
        rfl

theorem turns_branch (session : Session) (node : Node) :
    Turns receive (branch receive node) session (session.branch node) := by
  unfold branch Session.branch
  by_cases hblank : Text.isAllBlank node.body
  · rw [if_pos hblank, if_pos hblank]
    intro mirror
    rw [← left_nil receive]
    rfl
  · rw [if_neg hblank, if_neg hblank]
    intro mirror
    rw [bind_apply, run_eq (Body.carries_judge session.environment node.body)]
    cases hresult : (Body.condition session.environment node.body).result with
    | ok trace =>
        simp only [Printing.within, hresult]
        rfl
    | error fault =>
        simp only [Printing.within, hresult]
        rfl

/-- With a console, executing a node comes to the same turn. -/
theorem turns_execute (session : Session) (id : NodeId) :
    Turns receive (execute receive id) session (session.execute id) := by
  intro mirror
  unfold execute Session.execute
  rw [get_bind]
  cases session.graph.node? id with
  | none => exact turns_fail session _ mirror
  | some node =>
      dsimp only
      cases node.kind with
      | start | finish => rfl
      | connector => exact turns_advance session node mirror
      | process => exact turns_runBody session node mirror
      | decision => exact turns_branch session node mirror
      | io =>
          cases Directive.read? node.body with
          | some question => rfl
          | none => exact turns_runBody session node mirror

/-- With a console, a counted act comes to the same turn. -/
theorem turns_counted {act : Acting σ Outcome} {next : Session → Turn}
    (h : Turns receive act session.count (next session.count)) :
    Turns receive (counted act) session (session.counted next) := by
  intro mirror
  rw [Session.counted_eq, counted, bind_apply]
  change (if session.limit < session.steps + 1 then fail (.stepLimit session.limit) else act)
    ⟨session.count, mirror⟩ = _
  split
  · exact turns_fail session.count _ mirror
  · exact h mirror

theorem turns_idle (session : Session) : Turns receive (pure .idle) session session.idle := by
  intro mirror
  cases mirror <;> rfl

/-- **A step emits the lines of its turn**, one by one to the log and to the mirror. -/
theorem turns_step (session : Session) (answer : Option String) :
    Turns receive (step receive answer) session (session.step answer) := by
  intro mirror
  unfold step Session.step
  rw [get_bind]
  cases session.phase with
  | notStarted => exact turns_counted (turns_start _) mirror
  | running id => exact turns_counted (turns_execute _ id) mirror
  | waiting id question =>
      cases answer with
      | none => exact turns_idle session mirror
      | some answer => exact turns_counted (turns_accept _ id question answer) mirror
  | completed | failed => exact turns_idle session mirror

/-- A step sends its lines to the mirror. -/
theorem after_step (session : Session) (mirror : Option σ) (answer : Option String) :
    (Observed.mk session mirror).after receive (.step answer)
      = ⟨(session.step answer).session,
        mirror.map fun state => (session.step answer).lines.foldl receive state⟩ := by
  rw [after, turns_step]

/-- The mirror makes no difference to the session. -/
theorem session_afterAll (receive : σ → String → σ) (observed : Observed σ) (calls : List Call) :
    (observed.afterAll receive calls).session = observed.session.afterAll calls := by
  induction calls generalizing observed with
  | nil => rfl
  | cons call rest ih =>
      cases call with
      | reset => exact ih _
      | step answer =>
          rw [afterAll, List.foldl_cons, ← afterAll, ih, after_step]
          rfl

/-- Until the next reset a mirror receives what the log does. -/
theorem mirror_afterAll (receive : σ → String → σ) (session : Session) (mirror : Option σ)
    {calls : List Call} (hcalls : .reset ∉ calls) :
    ∃ lines, (session.afterAll calls).log = session.log ++ lines
      ∧ ((Observed.mk session mirror).afterAll receive calls).mirror
        = mirror.map fun state => lines.foldl receive state := by
  induction calls generalizing session mirror with
  | nil => exact ⟨[], (List.append_nil _).symm, by cases mirror <;> rfl⟩
  | cons call rest ih =>
      rw [List.mem_cons, not_or] at hcalls
      cases call with
      | reset => exact absurd rfl hcalls.1
      | step answer =>
          obtain ⟨lines, hlog, hmirror⟩ := ih (session.step answer).session
            (mirror.map fun state => (session.step answer).lines.foldl receive state) hcalls.2
          refine ⟨(session.step answer).lines ++ lines, ?_, ?_⟩
          · rw [← List.append_assoc, ← session.log_step]
            exact hlog
          · rw [afterAll, List.foldl_cons, ← afterAll, after_step, hmirror, Option.map_map]
            simp only [Function.comp_def, List.foldl_append]

end Turns

end Observed

/-! ### What the lines are -/

/-- The lines that an outcome accounts for: a marker, a prompt, an answer, or what the body of the
node prints, call by call and as far as it comes. -/
inductive Outcome.Accounts (session : Session) (answer : Option String) :
    Outcome → List String → Prop
  | idle : Accounts session answer .idle []
  | started {entry next} : Accounts session answer (.started entry next) [startMarker]
  | suspended {id prompt} : Accounts session answer (.suspended id prompt) [prompt]
  | resumed {name value next raw} (hanswer : answer = some raw) :
      Accounts session answer (.resumed name value next) ["> " ++ raw]
  | finished {id} : Accounts session answer (.finished id) [endMarker]
  | passed {node next} (hcurrent : session.phase.node? = some node.id)
      (hnode : session.graph.node? node.id = some node)
      (hbody : node.kind = .connector ∨ node.RunsStatements ∧ Text.isAllBlank node.body) :
      Accounts session answer (.advanced node.id next) []
  | ran {node next statements traces left} (hcurrent : session.phase.node? = some node.id)
      (hnode : session.graph.node? node.id = some node) (hbody : node.RunsStatements)
      (hread : Statement.parseAll node.body = .ok statements)
      (hdone : Body.Completes session.environment statements traces left) :
      Accounts session answer (.advanced node.id next) (traces.flatMap Trace.printed)
  | unconditional {node taken fallback next reason} (hcurrent : session.phase.node? = some node.id)
      (hnode : session.graph.node? node.id = some node) (hkind : node.kind = .decision)
      (hblank : Text.isAllBlank node.body) :
      Accounts session answer (.branched node.id false taken fallback next reason) []
  | judged {node expr trace taken fallback next} (hcurrent : session.phase.node? = some node.id)
      (hnode : session.graph.node? node.id = some node) (hkind : node.kind = .decision)
      (hread : Expr.parse node.body = .ok expr)
      (hrecords : Records session.environment expr trace) :
      Accounts session answer
        (.branched node.id trace.outcome.isTruthy taken fallback next trace.reason) trace.printed
  | failed {failure environment lines}
      (hleaves : failure.Leaves session.graph session.registers environment lines) :
      Accounts session answer (.failed failure) lines

/-- A body that succeeds has executed all its statements. -/
theorem Body.completes_of_exec {environment : Environment} {body : String} {count : Nat}
    (h : (exec environment body).result = .ok count) :
    ∃ statements traces left, Statement.parseAll body = .ok statements
      ∧ Completes environment statements traces left
      ∧ (exec environment body).lines = traces.flatMap Trace.printed := by
  cases hparse : Statement.parseAll body with
  | error error =>
      obtain ⟨readable, hbreaks⟩ := Statement.breaksOff_of_parseAll hparse
      rw [exec_of_breaksOff hbreaks] at h
      obtain ⟨_, -, hstopped⟩ := Execution.andThen_eq_ok_iff.mp h
      cases hstopped
  | ok statements =>
      obtain ⟨executed, rest, rfl, hends⟩ := ends_execAll environment statements
      rw [exec_of_parseAll hparse] at h ⊢
      generalize execAll environment (executed ++ rest) = run at *
      cases hends with
      | faulted => cases h
      | completed _ hdone =>
          rw [List.append_nil]
          exact ⟨executed, _, _, rfl, hdone, rfl⟩

theorem Body.records_of_condition {environment : Environment} {body : String} {trace : Trace}
    (h : (condition environment body).result = .ok trace) :
    ∃ expr, Expr.parse body = .ok expr ∧ Records environment expr trace
      ∧ (condition environment body).lines = trace.printed := by
  unfold condition at h ⊢
  cases hparse : Expr.parse body with
  | error error =>
      rw [hparse] at h
      cases h
  | ok expr =>
      rw [hparse] at h
      have hrecords := records_of_eval h
      exact ⟨expr, rfl, hrecords, congrArg Printing.lines hrecords.eval_eq⟩

/-- The lines of a step are those that its outcome accounts for. -/
theorem Session.accounts_step (session : Session) (answer : Option String) :
    (session.step answer).outcome.Accounts session answer (session.step answer).lines := by
  have hfailed : ∀ failure, (session.step answer).outcome = .failed failure →
      (session.step answer).outcome.Accounts session answer (session.step answer).lines := by
    intro failure h
    obtain ⟨environment, lines, hleaves, hturn⟩ := leaves_of_failed h
    rw [hturn]
    exact .failed hleaves
  have hreacts := session.reacts_step answer
  generalize session.step answer = turn at *
  cases hreacts with
  | idle => exact .idle
  | exceeded => exact hfailed _ rfl
  | started => exact .started
  | accepted => exact .resumed rfl
  | @executed _ id _ hphase _ hexecutes =>
      have hcurrent : session.phase.node? = some id := by rw [hphase, Phase.node?]
      cases hexecutes with
      | missing | faulted | unjudged => exact hfailed _ rfl
      | ended => exact .finished
      | asked => exact .suspended
      | passed hnode hbody =>
          obtain ⟨-, rfl⟩ := Graph.mem_nodes_of_node? hnode
          exact .passed hcurrent hnode hbody
      | ran hnode hbody hwritten hresult =>
          obtain ⟨-, rfl⟩ := Graph.mem_nodes_of_node? hnode
          obtain ⟨statements, traces, left, hread, hdone, hlines⟩ := Body.completes_of_exec hresult
          exact hlines ▸ .ran hcurrent hnode hbody hread hdone
      | branched hnode hkind hjudged =>
          obtain ⟨-, rfl⟩ := Graph.mem_nodes_of_node? hnode
          cases hjudged with
          | blank hblank => exact .unconditional hcurrent hnode hkind hblank
          | written _ hresult =>
              obtain ⟨expr, hread, hrecords, hlines⟩ := Body.records_of_condition hresult
              exact hlines ▸ .judged hcurrent hnode hkind hread hrecords

/-- **Every line is accounted for.** Whatever a session has been called with before, a step adds to
its log the lines that its outcome accounts for and no others, and a mirror receives the same lines,
each once and in their order. The session is where it would be without a console. From one reset to
the next a mirror receives what is then on the log. -/
theorem lines_are_accounted_for {σ : Type} (receive : σ → String → σ) (graph : Graph) (limit : Nat)
    (mirror : Option σ) (calls : List Call) (answer : Option String) :
    let before := (Observed.mk (Session.new graph limit) mirror).afterAll receive calls
    let told := Observed.step receive answer before
    before.session = (Session.new graph limit).afterAll calls
      ∧ (∃ lines, told.1.Accounts before.session answer lines
        ∧ told.2.session.log = before.session.log ++ lines
        ∧ told.2.mirror = (before.mirror.map fun state => lines.foldl receive state)
        ∧ before.session.step answer = ⟨told.1, lines, told.2.session⟩)
      ∧ ∀ later, .reset ∉ later →
        let after := before.reset.afterAll receive later
        after.mirror = before.mirror.map fun state => after.session.log.foldl receive state := by
  intro before told
  have hsession :=
    Observed.session_afterAll receive ⟨Session.new graph limit, mirror⟩ calls
  have htold : told = _ := Observed.turns_step before.session answer before.mirror
  refine ⟨hsession, ⟨(before.session.step answer).lines, ?_, ?_, ?_, ?_⟩, fun later hlater => ?_⟩
  · rw [htold]
    exact before.session.accounts_step answer
  · rw [htold]
    exact before.session.log_step answer
  · rw [htold]
  · rw [htold]
  · intro after
    obtain ⟨lines, hlog, hmirror⟩ :=
      Observed.mirror_afterAll receive before.session.reset before.mirror hlater
    have hlines : after.session.log = lines := by
      rw [Observed.session_afterAll]
      exact hlog
    rw [hlines]
    exact hmirror

/-- A run asks a question after a reset, goes on with the answer, and breaks off in the midst of a
body; the mirror has kept the lines from before the reset. -/
theorem lines_are_accounted_for_after_reset :
    let graph : Graph :=
      ⟨[⟨0, .start, "", ""⟩, ⟨1, .io, "", "input(\"x?\", x)"⟩,
        ⟨2, .process, "", "print(str(x), print(x)); y = print(x) && -x; print(y)"⟩],
        [⟨0, 1, none⟩, ⟨1, 2, none⟩], ⟨0, .start, "", ""⟩, by decide, by decide, by decide⟩
    let receive := fun (received : List String) line => received ++ [line]
    let before := (Observed.mk (Session.new graph 9) (some [])).afterAll receive [.step none]
    let later := [.step none, .step none, .step (some "true"), .step none, .step none]
    let after := before.reset.afterAll receive later
    let fault : Fault := .typeMismatch (.unary .negate) .number (.text "true")
    .reset ∉ later ∧ after.session.phase = .failed (some 2) (.evaluation "#2" fault)
      ∧ after.session.log = [startMarker, "x?", "> true", "true", "true true", "true"]
      ∧ after.mirror = some (startMarker :: after.session.log) := by
  intro graph receive before later after fault
  have hlater : .reset ∉ later := by decide
  obtain ⟨-, -, hmirrors⟩ :=
    lines_are_accounted_for receive graph 9 (some []) [.step none] none
  have hlog : after.session.log = [startMarker, "x?", "> true", "true", "true true", "true"] := by
    decide +kernel
  refine ⟨hlater, by decide +kernel, hlog, (hmirrors later hlater).trans ?_⟩
  decide +kernel

end Flowchart
