import Flowchart.Proofs.Faulting
import Flowchart.Proofs.ReadingAhead

/-!
# What a body depends on

An expression looks at no variables but those it names, so environments that agree on them are all
one to it. For statements in a row this is enough as well: whatever they have assigned by the time of
a fault, or by their end, is the same from either environment, and the rest stays as it was in each.
-/

namespace Flowchart

namespace Environment

/-- These variables have the same values in both environments, or have none in either. -/
def AgreeOn (names : List String) (first second : Environment) : Prop :=
  ∀ name ∈ names, first.get? name = second.get? name

instance (names : List String) (first second : Environment) :
    Decidable (AgreeOn names first second) :=
  inferInstanceAs (Decidable (∀ name ∈ names, first.get? name = second.get? name))

theorem AgreeOn.mono {names fewer : List String} {first second : Environment}
    (h : AgreeOn names first second) (hfewer : fewer ⊆ names) : AgreeOn fewer first second :=
  fun name hname => h name (hfewer hname)

end Environment

open Environment (AgreeOn)

namespace Expr

variable {first second : Environment}

mutual

theorem eval_congr :
    ∀ {expr : Expr}, AgreeOn expr.mentions first second → expr.eval first = expr.eval second
  | literal value, _ => rfl
  | var name, h => by rw [eval, eval, h name (List.mem_singleton_self name)]
  | unary op operand, h => by
      have hoperand : AgreeOn operand.mentions first second := h
      rw [eval, eval, eval_congr hoperand]
  | binary op left right, h => by
      have hleft := h.mono (List.subset_append_left left.mentions right.mentions)
      have hright := h.mono (List.subset_append_right left.mentions right.mentions)
      rw [eval, eval, eval_congr hleft, eval_congr hright]
  | call function arguments, h => by
      have harguments : AgreeOn (mentionsAll arguments) first second := h
      rw [eval, eval, evalAll_congr harguments]

theorem evalAll_congr :
    ∀ {arguments : List Expr}, AgreeOn (mentionsAll arguments) first second →
      evalAll first arguments = evalAll second arguments
  | [], _ => rfl
  | argument :: rest, h => by
      have hargument := h.mono (List.subset_append_left argument.mentions (mentionsAll rest))
      have hrest := h.mono (List.subset_append_right argument.mentions (mentionsAll rest))
      rw [evalAll, evalAll, eval_congr hargument, evalAll_congr hrest]

end

/-- The variables of an expression are those that it mentions. -/
theorem mem_variableNames {expr : Expr} {name : String} :
    name ∈ expr.variableNames ↔ name ∈ expr.mentions :=
  List.mem_eraseDups

/-- An evaluation depends on the variables of the expression alone. -/
theorem eval_eq_of_agreeOn {expr : Expr} (h : AgreeOn expr.variableNames first second) :
    expr.eval first = expr.eval second :=
  eval_congr fun name hname => h name (mem_variableNames.mpr hname)

theorem Faults.congr {expr : Expr} {lines : List String} {fault : Fault}
    (h : expr.Faults first lines fault) (hagree : AgreeOn expr.variableNames first second) :
    expr.Faults second lines fault := by
  apply faults_of_eval
  rw [← eval_eq_of_agreeOn hagree, h.eval_eq]

end Expr

theorem Records.congr {first second : Environment} {expr : Expr} {trace : Trace}
    (h : Records first expr trace) (hagree : AgreeOn expr.variableNames first second) :
    Records second expr trace := by
  apply records_of_eval
  rw [← Expr.eval_eq_of_agreeOn hagree, h.eval_eq]

/-! ### Statements in a row -/

theorem Statement.get?_store (statement : Statement) (environment : Environment) (value : Value)
    (name : String) :
    (statement.store environment value).get? name
      = if statement.target? = some name then some value else environment.get? name := by
  cases statement with
  | eval expr => rfl
  | assign target expr =>
      rw [store, Environment.get?_set]
      by_cases hname : name = target
      · simp [target?, hname]
      · simp [target?, hname, Ne.symm hname]

namespace Body

def reads (statements : List Statement) : List String :=
  statements.flatMap fun statement => statement.expr.variableNames

def targets (statements : List Statement) : List String := statements.filterMap Statement.target?

theorem targets_cons (statement : Statement) (rest : List Statement) (name : String) :
    name ∈ targets (statement :: rest) ↔ statement.target? = some name ∨ name ∈ targets rest := by
  simp [targets]

variable {first second left : Environment} {executed rest : List Statement} {traces : List Trace}

/-- Two environments stay in agreement where they were, and come to it where something is assigned. -/
theorem Completes.transfer (h : Completes first executed traces left)
    (hagree : AgreeOn (reads executed) first second) :
    ∃ other, Completes second executed traces other
      ∧ ∀ name, name ∈ targets executed ∨ first.get? name = second.get? name →
        left.get? name = other.get? name := by
  induction h generalizing second with
  | nil => exact ⟨second, .nil, fun name hname => hname.resolve_left (by simp [targets])⟩
  | @cons environment statement rest trace traces left hfirst hrest ih =>
      have hread : AgreeOn statement.expr.variableNames environment second :=
        hagree.mono (List.subset_append_left _ _)
      have hothers : AgreeOn (reads rest) environment second :=
        hagree.mono (List.subset_append_right _ _)
      have hstore : ∀ name, environment.get? name = second.get? name →
          (statement.store environment trace.outcome).get? name
            = (statement.store second trace.outcome).get? name := by
        intro name hname
        rw [statement.get?_store, statement.get?_store, hname]
      obtain ⟨other, hdone, hsame⟩ := ih fun name hname => hstore name (hothers name hname)
      refine ⟨other, .cons (hfirst.congr hread) hdone, fun name hname => hsame name ?_⟩
      rw [targets_cons] at hname
      rcases hname with (htarget | htargets) | hname
      · right
        rw [statement.get?_store, statement.get?_store, if_pos htarget, if_pos htarget]
      · exact .inl htargets
      · exact .inr (hstore name hname)

/-- What is not assigned keeps its value. -/
theorem Completes.get?_of_not_mem_targets (h : Completes first executed traces left)
    {name : String} (hname : name ∉ targets executed) : left.get? name = first.get? name := by
  induction h with
  | nil => rfl
  | @cons environment statement rest trace traces left hfirst hrest ih =>
      rw [targets_cons, not_or] at hname
      rw [ih hname.2, statement.get?_store, if_neg hname.1]

namespace Ends

variable {α β : Type} {run : Execution α}

theorem map (h : Ends first executed rest run) (f : α → β) : Ends first executed rest (run.map f) := by
  cases h with
  | completed a hdone => exact .completed (f a) hdone
  | faulted hdone hfault => exact .faulted hdone hfault

/-- An execution goes the same way where what its statements read is the same. -/
theorem transfer (h : Ends first executed rest run)
    (hagree : AgreeOn (reads (executed ++ rest)) first second) :
    ∃ other : Execution α, Ends second executed rest other
      ∧ other.result = run.result ∧ other.lines = run.lines
      ∧ ∀ name ∈ targets executed, other.environment.get? name = run.environment.get? name := by
  have hreads : reads (executed ++ rest) = reads executed ++ reads rest := List.flatMap_append
  rw [hreads] at hagree
  have hexecuted := hagree.mono (List.subset_append_left (reads executed) (reads rest))
  have hrest := hagree.mono (List.subset_append_right (reads executed) (reads rest))
  cases h with
  | completed a hdone =>
      obtain ⟨other, hother, hsame⟩ := hdone.transfer hexecuted
      exact ⟨_, .completed a hother, rfl, rfl, fun name hname => (hsame name (.inl hname)).symm⟩
  | @faulted statement _ _ left _ _ hdone hfault =>
      obtain ⟨other, hother, hsame⟩ := hdone.transfer hexecuted
      -- What the next statement reads was in agreement before, so it still is.
      have hread : AgreeOn statement.expr.variableNames left other := by
        intro name hname
        apply hsame
        exact .inr (hrest name (List.mem_append_left _ hname))
      exact ⟨_, .faulted hother (hfault.congr hread), rfl, rfl,
        fun name hname => (hsame name (.inl hname)).symm⟩

theorem get?_of_not_mem_targets (h : Ends first executed rest run) {name : String}
    (hname : name ∉ targets executed) : run.environment.get? name = first.get? name := by
  cases h with
  | completed _ hdone => exact hdone.get?_of_not_mem_targets hname
  | faulted hdone => exact hdone.get?_of_not_mem_targets hname

end Ends

end Body

/-- **Only what is read matters.** An expression has the same evaluation in environments that agree
on the variables it names; so a variable that it does not name has no influence. A body that can be
read has the same result and prints the same lines in environments that agree on the variables that
its statements name: in both it executes the same statements, what they assign is the same in the
end, and every other variable of either environment is as it was. -/
theorem depends_on_what_is_read (first second : Environment) :
    (∀ expr : Expr, AgreeOn expr.variableNames first second → expr.eval first = expr.eval second)
    ∧ (∀ (expr : Expr) name value, name ∉ expr.variableNames →
      expr.eval (first.set name value) = expr.eval first)
    ∧ ∀ body statements, Statement.parseAll body = .ok statements →
      AgreeOn (Body.reads statements) first second →
      (Body.exec second body).result = (Body.exec first body).result
        ∧ (Body.exec second body).lines = (Body.exec first body).lines
        ∧ ∃ executed rest, statements = executed ++ rest
          ∧ Body.Ends first executed rest (Body.exec first body)
          ∧ Body.Ends second executed rest (Body.exec second body)
          ∧ (∀ name ∈ Body.targets executed,
            (Body.exec second body).environment.get? name
              = (Body.exec first body).environment.get? name)
          ∧ ∀ name ∉ Body.targets executed,
            (Body.exec first body).environment.get? name = first.get? name
              ∧ (Body.exec second body).environment.get? name = second.get? name := by
  refine ⟨fun expr => Expr.eval_eq_of_agreeOn, fun expr name value hname => ?_,
    fun body statements hparse hagree => ?_⟩
  · apply Expr.eval_eq_of_agreeOn
    intro other hother
    rw [Environment.get?_set, if_neg]
    rintro rfl
    exact hname hother
  · obtain ⟨executed, rest, rfl, hends⟩ := Body.ends_execAll first statements
    obtain ⟨other, hother, hresult, hlines, htargets⟩ := hends.transfer hagree
    have hsecond := hother.execAll_eq
    rw [Body.exec_of_parseAll hparse, Body.exec_of_parseAll hparse, hsecond]
    refine ⟨?_, hlines, executed, rest, rfl, hends.map _, hother.map _, htargets,
      fun name hname => ⟨hends.get?_of_not_mem_targets hname,
        hother.get?_of_not_mem_targets hname⟩⟩
    rw [Execution.map, Execution.map, hresult]

/-- Of two environments one has a `z`, which a body would have assigned but for a fault, and the other
a `w`, which it does not come to. -/
theorem depends_on_what_is_read_before_a_fault :
    let body := "y = x; print(y); z = -y; w = true"
    let first := (Environment.empty.set "x" (.text "a")).set "w" (.bool false)
    let second := (Environment.empty.set "x" (.text "a")).set "z" (.bool false)
    (Body.exec first body).result = .error (.typeMismatch (.unary .negate) .number (.text "a"))
      ∧ (Body.exec second body).result = (Body.exec first body).result
      ∧ (Body.exec second body).lines = ["a"]
      ∧ (Body.exec second body).environment.get? "z" = some (.bool false) := by
  intro body first second
  have hparse : Statement.parseAll body = .ok
      [.assign "y" (.var "x"), .eval (.call .print [.var "y"]),
        .assign "z" (.unary .negate (.var "y")), .assign "w" (.literal (.bool true))] := by
    decide +kernel
  have hagree : AgreeOn ["x", "y", "y"] first second := by decide
  obtain ⟨hresult, hlines, -⟩ := (depends_on_what_is_read first second).2.2 body _ hparse hagree
  exact ⟨by decide +kernel, hresult, by rw [hlines]; decide +kernel, by decide +kernel⟩

end Flowchart
