import Flowchart.Evaluation
import Flowchart.Proofs.Cursor

/-!
# How far a body comes

Statements are executed in turn, each in the environment that those before it have left, until one
of them has a fault. A body that can be read as a whole does what its statements do; any other does
what the statements before the first unreadable one do, and stops there. No evaluation fails because
something cannot be read, so these two ways to fail are never confused.
-/

namespace Flowchart

/-! ### Executions in a row -/

namespace Execution

variable {α β γ : Type}

def preceded (lines : List String) (run : Execution α) : Execution α :=
  { run with lines := lines ++ run.lines }

def andThen (first : Execution α) (next : Environment → α → Execution β) : Execution β :=
  match first.result with
  | .error fault => ⟨first.environment, first.lines, .error fault⟩
  | .ok a => (next first.environment a).preceded first.lines

def map (f : α → β) (run : Execution α) : Execution β := { run with result := run.result.map f }

def stopped (environment : Environment) (fault : Fault) : Execution α :=
  ⟨environment, [], .error fault⟩

theorem andThen_of_error {first : Execution α} {fault : Fault} (h : first.result = .error fault)
    (next : Environment → α → Execution β) :
    first.andThen next = ⟨first.environment, first.lines, .error fault⟩ := by
  rw [andThen, h]

theorem andThen_of_ok {first : Execution α} {a : α} (h : first.result = .ok a)
    (next : Environment → α → Execution β) :
    first.andThen next = (next first.environment a).preceded first.lines := by
  rw [andThen, h]

theorem andThen_eq_error_iff {first : Execution α} {next : Environment → α → Execution β}
    {fault : Fault} : (first.andThen next).result = .error fault
      ↔ first.result = .error fault
        ∨ ∃ a, first.result = .ok a ∧ (next first.environment a).result = .error fault := by
  cases hfirst : first.result with
  | error other => simp [andThen_of_error hfirst]
  | ok a => simp [andThen_of_ok hfirst, preceded]

theorem map_eq_ok_iff {run : Execution α} {f : α → β} {b : β} :
    (run.map f).result = .ok b ↔ ∃ a, run.result = .ok a ∧ f a = b := by
  rw [map]
  cases run.result <;> simp [Except.map]

theorem map_eq_error_iff {run : Execution α} {f : α → β} {fault : Fault} :
    (run.map f).result = .error fault ↔ run.result = .error fault := by
  rw [map]
  cases run.result <;> simp [Except.map]

theorem andThen_eq_ok_iff {first : Execution α} {next : Environment → α → Execution β} {b : β} :
    (first.andThen next).result = .ok b
      ↔ ∃ a, first.result = .ok a ∧ (next first.environment a).result = .ok b := by
  cases hfirst : first.result with
  | error other => simp [andThen_of_error hfirst]
  | ok a => simp [andThen_of_ok hfirst, preceded]

theorem andThen_preceded (lines : List String) (first : Execution α)
    (next : Environment → α → Execution β) :
    (first.preceded lines).andThen next = (first.andThen next).preceded lines := by
  cases hfirst : first.result with
  | error fault =>
      rw [andThen_of_error hfirst, @andThen_of_error _ _ (first.preceded lines) _ hfirst]
      rfl
  | ok a =>
      rw [andThen_of_ok hfirst, @andThen_of_ok _ _ (first.preceded lines) _ hfirst]
      simp only [preceded, List.append_assoc]

/-- The order in which executions are joined does not matter. -/
theorem andThen_assoc (first : Execution α) (next : Environment → α → Execution β)
    (last : Environment → β → Execution γ) :
    (first.andThen next).andThen last
      = first.andThen fun environment a => (next environment a).andThen last := by
  cases hfirst : first.result with
  | error fault => rw [andThen_of_error hfirst, andThen_of_error hfirst, andThen_of_error rfl]
  | ok a => rw [andThen_of_ok hfirst, andThen_of_ok hfirst, andThen_preceded]

theorem map_andThen (first : Execution α) (next : Environment → α → Execution β) (f : β → γ) :
    (first.andThen next).map f = first.andThen fun environment a => (next environment a).map f := by
  cases hfirst : first.result with
  | error fault =>
      rw [andThen_of_error hfirst, andThen_of_error hfirst]
      rfl
  | ok a =>
      rw [andThen_of_ok hfirst, andThen_of_ok hfirst]
      rfl

theorem andThen_map (first : Execution α) (f : α → β) (next : Environment → β → Execution γ) :
    (first.map f).andThen next = first.andThen fun environment a => next environment (f a) := by
  cases hfirst : first.result with
  | error fault =>
      have hmap : (first.map f).result = .error fault := by rw [map, hfirst]; rfl
      rw [andThen_of_error hfirst, andThen_of_error hmap]
      rfl
  | ok a =>
      have hmap : (first.map f).result = .ok (f a) := by rw [map, hfirst]; rfl
      rw [andThen_of_ok hfirst, andThen_of_ok hmap]
      rfl

theorem map_map (f : α → β) (g : β → γ) (run : Execution α) :
    (run.map f).map g = run.map fun a => g (f a) := by
  rw [map, map, map]
  cases run.result <;> rfl

end Execution

/-! ### Statements in a row -/

/-- Executes a statement; a fault leaves the environment as it was. -/
def Statement.run (environment : Environment) (statement : Statement) : Execution Unit :=
  let step := statement.exec environment
  match step.result with
  | .error fault => ⟨environment, step.lines, .error fault⟩
  | .ok changed => ⟨changed, step.lines, .ok ()⟩

namespace Body

def execAll (environment : Environment) : List Statement → Execution Unit
  | [] => ⟨environment, [], .ok ()⟩
  | statement :: rest =>
    (statement.run environment).andThen fun changed _ => execAll changed rest

variable {environment : Environment} {chunk : List Token} {chunks rest : List (List Token)}

theorem execChunks_of_unreadable {error : SyntaxError}
    (h : Statement.ofTokens chunk = .error error) :
    execChunks environment (chunk :: rest) = .stopped environment (.unreadable error) := by
  rw [execChunks, h]
  rfl

theorem execChunks_of_readable {statement : Statement}
    (h : Statement.ofTokens chunk = .ok statement) :
    execChunks environment (chunk :: rest)
      = (statement.run environment).andThen fun changed _ => execChunks changed rest := by
  rw [execChunks, h, Statement.run]
  dsimp only
  cases (statement.exec environment).result with
  | error fault => rfl
  | ok changed => rfl

/-- Chunks in front are executed first. -/
theorem execChunks_append (environment : Environment) (front back : List (List Token)) :
    execChunks environment (front ++ back)
      = (execChunks environment front).andThen fun left _ => execChunks left back := by
  induction front generalizing environment with
  | nil => rfl
  | cons chunk front ih =>
      rw [List.cons_append]
      cases hread : Statement.ofTokens chunk with
      | error error => rw [execChunks_of_unreadable hread, execChunks_of_unreadable hread]; rfl
      | ok statement =>
          rw [execChunks_of_readable hread, execChunks_of_readable hread, Execution.andThen_assoc]
          simp only [ih]

/-- Chunks that can all be read are executed as their statements. -/
theorem execChunks_eq_execAll {statements : List Statement}
    (h : chunks.mapM Statement.ofTokens = .ok statements) (environment : Environment) :
    execChunks environment chunks = execAll environment statements := by
  induction chunks generalizing environment statements with
  | nil =>
      cases h
      rfl
  | cons chunk rest ih =>
      rw [List.mapM_cons] at h
      obtain ⟨statement, hread, h⟩ := bind_eq_ok_iff.mp h
      obtain ⟨others, hothers, h⟩ := bind_eq_ok_iff.mp h
      cases h
      rw [execChunks_of_readable hread, execAll]
      simp only [ih hothers]

theorem exec_of_split {body : String} (h : Statement.split body = .ok chunks) :
    exec environment body = (execChunks environment chunks).map fun _ => chunks.length := by
  rw [exec, h]
  rfl

theorem exec_of_not_split {body : String} {error : SyntaxError}
    (h : Statement.split body = .error error) :
    exec environment body = .stopped environment (.unreadable error) := by
  rw [exec, h]
  rfl

end Body

/-! ### Faults of evaluation -/

namespace Printing

variable {α β : Type}

theorem bind_eq_ok_iff {first : Printing α} {next : α → Printing β} {b : β} :
    (first >>= next).result = .ok b ↔ ∃ a, first.result = .ok a ∧ (next a).result = .ok b := by
  change (Printing.bind first next).result = .ok b ↔ _
  rw [Printing.bind]
  cases first.result <;> simp

theorem bind_eq_error_iff {first : Printing α} {next : α → Printing β} {fault : Fault} :
    (first >>= next).result = .error fault
      ↔ first.result = .error fault
        ∨ ∃ a, first.result = .ok a ∧ (next a).result = .error fault := by
  change (Printing.bind first next).result = .error fault ↔ _
  rw [Printing.bind]
  cases first.result <;> simp

/-- If the computation fails, it is not because something cannot be read. -/
def Evaluates (computation : Printing α) : Prop :=
  ∀ error, computation.result ≠ .error (.unreadable error)

theorem evaluates_of_ok {computation : Printing α} {a : α} (h : computation.result = .ok a) :
    computation.Evaluates := by
  simp [Evaluates, h]

theorem evaluates_pure (a : α) : (pure a : Printing α).Evaluates := evaluates_of_ok rfl

theorem evaluates_fail {fault : Fault} (h : ∀ error, fault ≠ .unreadable error) :
    (fail fault : Printing α).Evaluates := by
  simpa [Evaluates, fail] using h

theorem Evaluates.bind {first : Printing α} {next : α → Printing β} (hfirst : first.Evaluates)
    (hnext : ∀ a, (next a).Evaluates) : (first >>= next).Evaluates := by
  intro error h
  rcases bind_eq_error_iff.mp h with h | ⟨a, -, h⟩
  · exact hfirst error h
  · exact hnext a error h

end Printing

open Printing (evaluates_of_ok evaluates_pure evaluates_fail)

theorem BinaryOp.evaluates_apply (op : BinaryOp) (left right : Value) :
    (Printing.ofExcept (op.apply left right)).Evaluates := by
  intro error
  change op.apply left right ≠ _
  have hdivide : ∀ calculate x y, op.divideBy calculate x y ≠ .error (.unreadable error) := by
    intro calculate x y
    unfold divideBy
    split <;> simp
  have harithmetic : ∀ calculate : Float → Float → Except Fault Float,
      (∀ x y, calculate x y ≠ .error (.unreadable error)) →
      op.applyArithmetic calculate left right ≠ .error (.unreadable error) := by
    intro calculate hcalculate
    unfold applyArithmetic
    split
    · rename_i x y
      cases hresult : calculate x y with
      | ok z => simp [Except.map]
      | error fault =>
          have hfault := hcalculate x y
          rw [hresult] at hfault
          simpa [Except.map] using hfault
    · simp
    · simp
  have hcomparison : op.applyComparison left right ≠ .error (.unreadable error) := by
    unfold applyComparison
    split <;> (intro h; cases h)
  have hsum : applySum left right ≠ .error (.unreadable error) := by
    unfold applySum
    split <;> simp
  cases op with
  | or | and | equal | notEqual => simp [apply]
  | less | lessEqual | greater | greaterEqual => exact hcomparison
  | add => exact hsum
  | subtract | multiply => exact harithmetic _ fun _ _ => by simp
  | divide | modulo => exact harithmetic _ (hdivide _)

theorem UnaryOp.evaluates_apply (op : UnaryOp) (operand : Value) :
    (Printing.ofExcept (op.apply operand)).Evaluates := by
  intro error
  change op.apply operand ≠ _
  unfold apply
  split <;> simp

theorem Builtin.evaluates_apply (function : Builtin) (arguments : List Value) :
    (function.apply arguments).Evaluates := by
  unfold apply
  split
  · exact (evaluates_of_ok rfl).bind fun _ => evaluates_pure _
  · exact evaluates_pure _
  · exact evaluates_fail (by simp)

namespace Expr

mutual

/-- No evaluation complains of a source. -/
theorem evaluates_eval (environment : Environment) :
    ∀ expr : Expr, (expr.eval environment).Evaluates
  | literal value => evaluates_pure _
  | var name => by
      rw [eval]
      split
      · exact evaluates_pure _
      · exact evaluates_fail (by simp)
  | unary op operand =>
      (evaluates_eval environment operand).bind fun child =>
        (op.evaluates_apply child.outcome).bind fun _ => evaluates_pure _
  | binary op left right => by
      rw [eval]
      refine (evaluates_eval environment left).bind fun first => ?_
      split
      · exact evaluates_pure _
      · refine (evaluates_eval environment right).bind fun second => ?_
        exact (op.evaluates_apply first.outcome second.outcome).bind fun _ => evaluates_pure _
  | call function arguments =>
      (evaluates_evalAll environment arguments).bind fun traces =>
        (function.evaluates_apply (traces.map Trace.outcome)).bind fun _ => evaluates_pure _

theorem evaluates_evalAll (environment : Environment) :
    ∀ arguments : List Expr, (evalAll environment arguments).Evaluates
  | [] => evaluates_pure _
  | argument :: rest =>
      (evaluates_eval environment argument).bind fun _ =>
        (evaluates_evalAll environment rest).bind fun _ => evaluates_pure _

end

end Expr

theorem Statement.evaluates_exec (environment : Environment) (statement : Statement) :
    (statement.exec environment).Evaluates := by
  refine (statement.expr.evaluates_eval environment).bind fun trace => ?_
  split <;> exact evaluates_pure _

namespace Statement

variable {environment : Environment} {statement : Statement}

theorem run_of_error {fault : Fault} (h : (statement.exec environment).result = .error fault) :
    statement.run environment
      = ⟨environment, (statement.exec environment).lines, .error fault⟩ := by
  simp only [run, h]

theorem run_of_ok {changed : Environment} (h : (statement.exec environment).result = .ok changed) :
    statement.run environment = ⟨changed, (statement.exec environment).lines, .ok ()⟩ := by
  simp only [run, h]

theorem run_eq_error_iff {fault : Fault} : (statement.run environment).result = .error fault
    ↔ (statement.exec environment).result = .error fault := by
  cases h : (statement.exec environment).result with
  | error other => simp [run_of_error h]
  | ok changed => simp [run_of_ok h]

/-- A statement without a fault changes at most its target. -/
theorem exec_eq_ok_iff {changed : Environment} : (statement.exec environment).result = .ok changed
    ↔ ∃ trace, (statement.expr.eval environment).result = .ok trace
      ∧ changed = match statement.target? with
        | some name => environment.set name trace.outcome
        | none => environment := by
  rw [exec, Printing.bind_eq_ok_iff]
  cases statement.target? <;> simp [pure, eq_comm]

end Statement

/-- No statement that is executed complains of a source. -/
theorem Statement.run_ne_unreadable (environment : Environment) (statement : Statement)
    (error : SyntaxError) : (statement.run environment).result ≠ .error (.unreadable error) :=
  fun h => statement.evaluates_exec environment error (run_eq_error_iff.mp h)

theorem Body.execAll_ne_unreadable (environment : Environment) (statements : List Statement)
    (error : SyntaxError) :
    (execAll environment statements).result ≠ .error (.unreadable error) := by
  induction statements generalizing environment with
  | nil => nofun
  | cons statement rest ih =>
      intro h
      rcases Execution.andThen_eq_error_iff.mp h with h | ⟨_, _, h⟩
      · exact statement.run_ne_unreadable environment error h
      · exact ih _ h

end Flowchart
