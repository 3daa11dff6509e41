import Flowchart.Proofs.Recording

/-!
# How far an evaluation comes before its fault

An expression that cannot be evaluated has a part whose own operands come to values but which does
not: a variable without a value, or an operator or a function that refuses what it is given. What
comes before that part is evaluated and recorded, and so its lines are printed; what comes after it
is not looked at. For statements in a row the same is true one level up: those before the first fault
are executed to their end, the one with the fault sets nothing, and the others are left alone.
-/

namespace Flowchart

mutual

/-- The evaluation of an expression prints these lines and then comes to a fault. -/
inductive Expr.Faults (environment : Environment) : Expr → List String → Fault → Prop
  | unbound {name} (hvalue : environment.get? name = none) :
      Faults environment (.var name) [] (.undefinedVariable name)
  | operand {op operand lines fault} (h : Faults environment operand lines fault) :
      Faults environment (.unary op operand) lines fault
  | unary {op operand child fault} (hchild : Records environment operand child)
      (hfault : op.apply child.outcome = .error fault) :
      Faults environment (.unary op operand) child.printed fault
  | left {op left right lines fault} (h : Faults environment left lines fault) :
      Faults environment (.binary op left right) lines fault
  | right {op left right first lines fault} (hfirst : Records environment left first)
      (hopen : ¬ op.DecidedBy first.outcome) (h : Faults environment right lines fault) :
      Faults environment (.binary op left right) (first.printed ++ lines) fault
  | binary {op left right first second fault} (hfirst : Records environment left first)
      (hopen : ¬ op.DecidedBy first.outcome) (hsecond : Records environment right second)
      (hfault : op.apply first.outcome second.outcome = .error fault) :
      Faults environment (.binary op left right) (first.printed ++ second.printed) fault
  | argument {function arguments lines fault} (h : FaultsAmong environment arguments lines fault) :
      Faults environment (.call function arguments) lines fault
  | call {arguments traces} (harguments : RecordsAll environment arguments traces)
      (hcount : traces.length ≠ 1) :
      Faults environment (.call .str arguments) (Trace.printedAll traces)
        (.argumentCount .str 1 traces.length)

/-- The first of some arguments with a fault comes to it, after these lines of it and of those before
it. -/
inductive Expr.FaultsAmong (environment : Environment) : List Expr → List String → Fault → Prop
  | head {argument rest lines fault} (h : Faults environment argument lines fault) :
      FaultsAmong environment (argument :: rest) lines fault
  | tail {argument rest first lines fault} (hfirst : Records environment argument first)
      (h : FaultsAmong environment rest lines fault) :
      FaultsAmong environment (argument :: rest) (first.printed ++ lines) fault

end

/-! ### Evaluation comes to these faults -/

namespace Printing

variable {α β : Type} {lines : List String} {fault : Fault}

theorem mk_error_bind (lines : List String) (fault : Fault) (next : α → Printing β) :
    ((⟨lines, .error fault⟩ : Printing α) >>= next) = ⟨lines, .error fault⟩ := rfl

/-- A computation fails in its first part or in its second. -/
theorem bind_eq_mk_error {first : Printing α} {next : α → Printing β}
    (h : (first >>= next) = ⟨lines, .error fault⟩) :
    first = ⟨lines, .error fault⟩
      ∨ ∃ front back a, first = ⟨front, .ok a⟩ ∧ next a = ⟨back, .error fault⟩
        ∧ lines = front ++ back := by
  obtain ⟨front, result⟩ := first
  cases result with
  | error other =>
      rw [mk_error_bind, mk.injEq] at h
      obtain ⟨rfl, hresult⟩ := h
      cases hresult
      exact .inl rfl
  | ok a =>
      rw [mk_ok_bind, mk.injEq] at h
      obtain ⟨rfl, hresult⟩ := h
      exact .inr ⟨front, (next a).lines, a, rfl, by rw [← hresult], rfl⟩

theorem of_bind_pure_eq_mk_error {first : Printing α} {f : α → β}
    (h : (first >>= fun a => pure (f a)) = ⟨lines, .error fault⟩) :
    first = ⟨lines, .error fault⟩ := by
  rcases bind_eq_mk_error h with hfirst | ⟨_, _, a, -, hpure, -⟩
  · exact hfirst
  · cases hpure

theorem ofExcept_eq_mk_error {result : Except Fault α}
    (h : ofExcept result = ⟨lines, .error fault⟩) : result = .error fault ∧ lines = [] := by
  cases h
  exact ⟨rfl, rfl⟩

end Printing

theorem Builtin.apply_eq_mk_error_iff {function : Builtin} {arguments : List Value}
    {lines : List String} {fault : Fault} :
    function.apply arguments = ⟨lines, .error fault⟩
      ↔ function = .str ∧ arguments.length ≠ 1 ∧ lines = []
        ∧ fault = .argumentCount .str 1 arguments.length := by
  cases function with
  | print => exact ⟨nofun, nofun⟩
  | str =>
      match arguments with
      | [] | _ :: _ :: _ =>
          constructor
          · rintro ⟨⟩
            exact ⟨rfl, by simp, rfl, rfl⟩
          · rintro ⟨-, -, rfl, rfl⟩
            rfl
      | [only] => exact ⟨nofun, fun h => absurd rfl h.2.1⟩

section Evaluation

variable {environment : Environment}

theorem eval_eq_mk_ok {expr : Expr} {lines : List String} {trace : Trace}
    (h : expr.eval environment = ⟨lines, .ok trace⟩) :
    Records environment expr trace ∧ lines = trace.printed := by
  have hrecords : Records environment expr trace := records_of_eval (by rw [h])
  rw [hrecords.eval_eq, Printing.mk.injEq] at h
  exact ⟨hrecords, h.1.symm⟩

theorem evalAll_eq_mk_ok {arguments : List Expr} {lines : List String} {traces : List Trace}
    (h : Expr.evalAll environment arguments = ⟨lines, .ok traces⟩) :
    RecordsAll environment arguments traces ∧ lines = Trace.printedAll traces := by
  have hrecords : RecordsAll environment arguments traces := recordsAll_of_evalAll (by rw [h])
  rw [hrecords.evalAll_eq, Printing.mk.injEq] at h
  exact ⟨hrecords, h.1.symm⟩

mutual

/-- A failing evaluation comes to its fault by one of the rules. -/
theorem Expr.faults_of_eval :
    ∀ {expr : Expr} {lines fault}, expr.eval environment = ⟨lines, .error fault⟩ →
      expr.Faults environment lines fault
  | .literal value, _, _, h => by cases h
  | .var name, _, _, h => by
      rw [eval] at h
      split at h
      · cases h
      · cases h
        exact .unbound (by assumption)
  | .unary op operand, _, _, h => by
      rcases Printing.bind_eq_mk_error h with hoperand | ⟨_, _, child, hchild, hlast, rfl⟩
      · exact .operand (faults_of_eval hoperand)
      obtain ⟨hrecords, rfl⟩ := eval_eq_mk_ok hchild
      obtain ⟨hfault, rfl⟩ :=
        Printing.ofExcept_eq_mk_error (Printing.of_bind_pure_eq_mk_error hlast)
      rw [List.append_nil]
      exact .unary hrecords hfault
  | .binary op left right, _, _, h => by
      rw [eval] at h
      rcases Printing.bind_eq_mk_error h with hleft | ⟨_, _, first, hfirst, hnext, rfl⟩
      · exact .left (faults_of_eval hleft)
      obtain ⟨hrecords, rfl⟩ := eval_eq_mk_ok hfirst
      cases hdecided : op.decidedBy? first.outcome with
      | some outcome =>
          rw [hdecided] at hnext
          cases hnext
      | none =>
          have hopen := BinaryOp.decidedBy?_eq_none_iff.mp hdecided
          rw [hdecided] at hnext
          rcases Printing.bind_eq_mk_error hnext with hright | ⟨_, _, second, hsecond, hlast, rfl⟩
          · exact .right hrecords hopen (faults_of_eval hright)
          obtain ⟨hothers, rfl⟩ := eval_eq_mk_ok hsecond
          obtain ⟨hfault, rfl⟩ :=
            Printing.ofExcept_eq_mk_error (Printing.of_bind_pure_eq_mk_error hlast)
          rw [List.append_nil]
          exact .binary hrecords hopen hothers hfault
  | .call function arguments, _, _, h => by
      rcases Printing.bind_eq_mk_error h with harguments | ⟨_, _, traces, htraces, hlast, rfl⟩
      · exact .argument (faultsAmong_of_evalAll harguments)
      obtain ⟨hrecords, rfl⟩ := evalAll_eq_mk_ok htraces
      have hlast := Printing.of_bind_pure_eq_mk_error hlast
      rw [Builtin.apply_eq_mk_error_iff, List.length_map] at hlast
      obtain ⟨rfl, hcount, rfl, rfl⟩ := hlast
      rw [List.append_nil]
      exact .call hrecords hcount

theorem Expr.faultsAmong_of_evalAll :
    ∀ {arguments : List Expr} {lines fault},
      Expr.evalAll environment arguments = ⟨lines, .error fault⟩ →
        FaultsAmong environment arguments lines fault
  | [], _, _, h => by cases h
  | argument :: rest, _, _, h => by
      rcases Printing.bind_eq_mk_error h with hfirst | ⟨_, _, first, hfirst, hrest, rfl⟩
      · exact .head (faults_of_eval hfirst)
      obtain ⟨hrecords, rfl⟩ := eval_eq_mk_ok hfirst
      exact .tail hrecords (faultsAmong_of_evalAll (Printing.of_bind_pure_eq_mk_error hrest))

end

mutual

/-- Each of the rules is followed by the evaluation. -/
theorem Expr.Faults.eval_eq :
    ∀ {expr : Expr} {lines fault}, expr.Faults environment lines fault →
      expr.eval environment = ⟨lines, .error fault⟩
  | _, _, _, .unbound hvalue => by
      rw [eval, hvalue]
      rfl
  | _, _, _, .operand h => by rw [eval, h.eval_eq, Printing.mk_error_bind]
  | _, _, _, .unary hchild hfault => by
      rw [eval]
      exact Printing.bind_eq_mk_of_silent hchild.eval_eq (by rw [hfault]; rfl)
  | _, _, _, .left h => by rw [eval, h.eval_eq, Printing.mk_error_bind]
  | _, _, _, .right hfirst hopen h => by
      have hleft := BinaryOp.decidedBy?_eq_none_iff.mpr hopen
      rw [eval]
      refine Printing.bind_eq_mk hfirst.eval_eq ?_
      rw [hleft]
      dsimp only
      rw [h.eval_eq, Printing.mk_error_bind]
  | _, _, _, .binary hfirst hopen hsecond hfault => by
      have hleft := BinaryOp.decidedBy?_eq_none_iff.mpr hopen
      rw [eval]
      refine Printing.bind_eq_mk hfirst.eval_eq ?_
      rw [hleft]
      exact Printing.bind_eq_mk_of_silent hsecond.eval_eq (by rw [hfault]; rfl)
  | _, _, _, .argument h => by rw [eval, h.evalAll_eq, Printing.mk_error_bind]
  | _, _, _, @Expr.Faults.call _ arguments traces harguments hcount => by
      have hlength : (traces.map Trace.outcome).length ≠ 1 := by rwa [List.length_map]
      have happly := Builtin.apply_eq_mk_error_iff.mpr ⟨rfl, hlength, rfl, rfl⟩
      rw [eval, ← List.length_map Trace.outcome]
      exact Printing.bind_eq_mk_of_silent harguments.evalAll_eq (by rw [happly]; rfl)

theorem Expr.FaultsAmong.evalAll_eq :
    ∀ {arguments : List Expr} {lines fault}, FaultsAmong environment arguments lines fault →
      Expr.evalAll environment arguments = ⟨lines, .error fault⟩
  | _, _, _, .head h => by rw [evalAll, h.eval_eq, Printing.mk_error_bind]
  | _, _, _, .tail hfirst h => by
      rw [evalAll]
      refine Printing.bind_eq_mk hfirst.eval_eq ?_
      rw [h.evalAll_eq, Printing.mk_error_bind]

end

/-- An expression has a record, or it comes to a fault. -/
theorem Expr.records_or_faults (environment : Environment) (expr : Expr) :
    (∃ trace, Records environment expr trace)
      ∨ ∃ lines fault, expr.Faults environment lines fault := by
  cases heval : expr.eval environment with
  | mk lines result =>
      cases result with
      | ok trace => exact .inl ⟨trace, (eval_eq_mk_ok heval).1⟩
      | error fault => exact .inr ⟨lines, fault, faults_of_eval heval⟩

end Evaluation

/-! ### Statements in a row -/

def Statement.store (environment : Environment) (value : Value) : Statement → Environment
  | assign target _ => environment.set target value
  | eval _ => environment

namespace Body

/-- Statements are executed in turn, each to its end and with this record. -/
inductive Completes : Environment → List Statement → List Trace → Environment → Prop
  | nil {environment} : Completes environment [] [] environment
  | cons {environment statement rest trace traces left}
      (hfirst : Records environment statement.expr trace)
      (hrest : Completes (statement.store environment trace.outcome) rest traces left) :
      Completes environment (statement :: rest) (trace :: traces) left

/-- An execution of statements ends: those at the front are executed, and then there is none left or
the next one has a fault. -/
inductive Ends {α : Type} (environment : Environment) (executed : List Statement) :
    List Statement → Execution α → Prop
  | completed {traces left} (a : α) (hdone : Completes environment executed traces left) :
      Ends environment executed [] ⟨left, traces.flatMap Trace.printed, .ok a⟩
  | faulted {statement rest traces left lines fault}
      (hdone : Completes environment executed traces left)
      (hfault : statement.expr.Faults left lines fault) :
      Ends environment executed (statement :: rest)
        ⟨left, traces.flatMap Trace.printed ++ lines, .error fault⟩

end Body

namespace Statement

variable {environment : Environment} {statement : Statement}

theorem run_of_records {trace : Trace} (h : Records environment statement.expr trace) :
    statement.run environment = ⟨statement.store environment trace.outcome, trace.printed, .ok ()⟩ := by
  have hexec : statement.exec environment
      = ⟨trace.printed, .ok (statement.store environment trace.outcome)⟩ := by
    rw [exec]
    refine Printing.bind_eq_mk_of_silent h.eval_eq ?_
    cases statement <;> rfl
  rw [run, hexec]

theorem run_of_faults {lines : List String} {fault : Fault}
    (h : statement.expr.Faults environment lines fault) :
    statement.run environment = ⟨environment, lines, .error fault⟩ := by
  rw [run, exec, h.eval_eq, Printing.mk_error_bind]

end Statement

namespace Body

variable {environment left : Environment} {executed rest : List Statement} {traces : List Trace}

/-- Statements that complete go before the others. -/
theorem Completes.execAll_append (h : Completes environment executed traces left)
    (rest : List Statement) :
    execAll environment (executed ++ rest)
      = (execAll left rest).preceded (traces.flatMap Trace.printed) := by
  induction h with
  | nil => rfl
  | cons hfirst hrest ih =>
      rw [List.cons_append, execAll, Statement.run_of_records hfirst, Execution.andThen_of_ok rfl, ih,
        List.flatMap_cons]
      exact congrArg (Execution.mk _ · _) (List.append_assoc _ _ _).symm

/-- An execution that ends in one way is what executing all the statements comes to. -/
theorem Ends.execAll_eq {run : Execution Unit} (h : Ends environment executed rest run) :
    execAll environment (executed ++ rest) = run := by
  cases h with
  | completed _ hdone =>
      rw [hdone.execAll_append]
      exact congrArg (Execution.mk _ · _) (List.append_nil _)
  | faulted hdone hfault =>
      rw [hdone.execAll_append, execAll, Statement.run_of_faults hfault,
        Execution.andThen_of_error rfl]
      rfl

theorem Ends.cons {α : Type} {statement : Statement} {trace : Trace} {run : Execution α}
    (hfirst : Records environment statement.expr trace)
    (h : Ends (statement.store environment trace.outcome) executed rest run) :
    Ends environment (statement :: executed) rest (run.preceded trace.printed) := by
  cases h with
  | completed a hdone => exact .completed a (.cons hfirst hdone)
  | faulted hdone hfault =>
      rw [Execution.preceded, ← List.append_assoc]
      exact .faulted (.cons hfirst hdone) hfault

/-- Statements in a row are executed up to the first that has a fault. -/
theorem ends_execAll (environment : Environment) (statements : List Statement) :
    ∃ executed rest, statements = executed ++ rest
      ∧ Ends environment executed rest (execAll environment statements) := by
  induction statements generalizing environment with
  | nil => exact ⟨[], [], rfl, .completed () .nil⟩
  | cons statement others ih =>
      rw [execAll]
      rcases statement.expr.records_or_faults environment with
        ⟨trace, hrecords⟩ | ⟨lines, fault, hfault⟩
      · obtain ⟨executed, rest, rfl, hends⟩ := ih (statement.store environment trace.outcome)
        rw [Statement.run_of_records hrecords, Execution.andThen_of_ok rfl]
        exact ⟨statement :: executed, rest, rfl, hends.cons hrecords⟩
      · rw [Statement.run_of_faults hfault, Execution.andThen_of_error rfl]
        exact ⟨[], statement :: others, rfl, .faulted .nil hfault⟩

end Body

end Flowchart
