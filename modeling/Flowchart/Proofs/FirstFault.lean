import Flowchart.Proofs.Faulting
import Flowchart.Proofs.Scanning

/-!
# The fault of an evaluation

An evaluation goes over the parts of an expression from left to right, operands before what is made
of them, and passes by the right operands that do not matter any more. If it fails, then at the
first part that has no value. Whatever it went over before has one, the operands of that part among
it, and the fault says what is wrong with that part: a variable without a value, a division by zero,
a call with the wrong number of arguments, or an operand of a type that its operator does not take.
-/

namespace Flowchart

/-! ### What operators refuse -/

attribute [simp] Value.typeName

@[simp]
def OperandType.typeNames : OperandType → List String
  | number => ["Number"]
  | text => ["Text"]
  | numberOrText => ["Number", "Text"]

/-- What a type mismatch shows as expected are the names of the types. -/
theorem OperandType.name_eq_intercalate (expected : OperandType) :
    expected.name = " or ".intercalate expected.typeNames := by
  cases expected <;> decide

inductive UnaryOp.Refuses (op : UnaryOp) (operand : Value) : Fault → Prop
  | operand {expected : OperandType} (htype : operand.typeName ∉ expected.typeNames) :
      Refuses op operand (.typeMismatch (.unary op) expected operand)

/-- What an operator complains of in its operands: the left one is looked at first, and a divisor
only once both are numbers. -/
inductive BinaryOp.Refuses (op : BinaryOp) (left right : Value) : Fault → Prop
  | zero {x y : Float} (hop : op = .divide ∨ op = .modulo) (hleft : left = .number x)
      (hright : right = .number y) (hzero : y == 0.0) : Refuses op left right (.divisionByZero op)
  | left {expected : OperandType} (htype : left.typeName ∉ expected.typeNames) :
      Refuses op left right (.typeMismatch (.binary op) expected left)
  | right {expected : OperandType} (hleft : left.typeName ∈ expected.typeNames)
      (htype : right.typeName ∉ expected.typeNames) :
      Refuses op left right (.typeMismatch (.binary op) expected right)

/-- An operator before an operand fails for its type alone. -/
theorem UnaryOp.refuses_of_apply {op : UnaryOp} {operand : Value} {fault : Fault}
    (h : op.apply operand = .error fault) : op.Refuses operand fault := by
  cases op with
  | not => cases h
  | negate =>
      cases operand with
      | number => cases h
      | text | bool =>
          cases h
          exact .operand (by simp)

namespace BinaryOp

variable {op : BinaryOp} {left right : Value} {fault : Fault}

theorem refuses_of_applyComparison (h : op.applyComparison left right = .error fault) :
    op.Refuses left right fault := by
  cases left with
  | bool =>
      cases h
      exact .left (by simp)
  | number =>
      cases right with
      | number => cases h
      | text | bool =>
          cases h
          exact .right (by simp) (by simp)
  | text =>
      cases right with
      | text => cases h
      | number | bool =>
          cases h
          exact .right (by simp) (by simp)

theorem refuses_of_applySum (h : applySum left right = .error fault) :
    add.Refuses left right fault := by
  cases left with
  | text => cases h
  | number =>
      cases right with
      | number | text => cases h
      | bool =>
          cases h
          exact .right (by simp) (by simp)
  | bool =>
      cases right with
      | text => cases h
      | number | bool =>
          cases h
          exact .left (by simp)

theorem refuses_of_applyArithmetic {calculate : Float → Float → Except Fault Float}
    (h : op.applyArithmetic calculate left right = .error fault)
    (hcalculate : ∀ x y, calculate x y = .error fault →
      op.Refuses (.number x) (.number y) fault) : op.Refuses left right fault := by
  cases left with
  | text | bool =>
      cases h
      exact .left (by simp)
  | number x =>
      cases right with
      | text | bool =>
          cases h
          exact .right (by simp) (by simp)
      | number y => exact hcalculate x y (map_eq_error_iff.mp h)

theorem refuses_of_divideBy {calculate : Float → Float → Float} {x y : Float}
    (hop : op = .divide ∨ op = .modulo) (h : op.divideBy calculate x y = .error fault) :
    op.Refuses (.number x) (.number y) fault := by
  unfold divideBy at h
  split at h
  · cases h
    exact .zero hop rfl rfl (by assumption)
  · cases h

/-- An operator between operands fails for their types, or for a zero divisor. -/
theorem refuses_of_apply (h : op.apply left right = .error fault) :
    op.Refuses left right fault := by
  cases op with
  | or | and | equal | notEqual => cases h
  | less | lessEqual | greater | greaterEqual => exact refuses_of_applyComparison h
  | add => exact refuses_of_applySum h
  | subtract | multiply => exact refuses_of_applyArithmetic h nofun
  | divide => exact refuses_of_applyArithmetic h fun _ _ => refuses_of_divideBy (.inl rfl)
  | modulo => exact refuses_of_applyArithmetic h fun _ _ => refuses_of_divideBy (.inr rfl)

end BinaryOp

/-! ### The order of evaluation -/

namespace Expr

def HasValue (environment : Environment) (expr : Expr) : Prop :=
  ∃ trace, (expr.eval environment).result = .ok trace

/-- As the left operand of an operator the expression makes the right one needless. -/
def decides (environment : Environment) (op : BinaryOp) (left : Expr) : Bool :=
  match (left.eval environment).result with
  | .ok first => op.DecidedBy first.outcome
  | .error _ => false

mutual

/-- The parts of an expression in the order in which they are evaluated, itself as the last. -/
def visits (environment : Environment) : Expr → List Expr
  | literal value => [literal value]
  | var name => [var name]
  | unary op operand => operand.visits environment ++ [unary op operand]
  | binary op left right =>
    left.visits environment
      ++ (if left.decides environment op then [] else right.visits environment)
      ++ [binary op left right]
  | call function arguments => visitsAll environment arguments ++ [call function arguments]

def visitsAll (environment : Environment) : List Expr → List Expr
  | [] => []
  | argument :: rest => argument.visits environment ++ visitsAll environment rest

end

/-- What is wrong with an expression that has no value although its operands have one. -/
inductive Lacks (environment : Environment) : Expr → Fault → Prop
  | unbound {name} (hvalue : environment.get? name = none) :
      Lacks environment (.var name) (.undefinedVariable name)
  | unary {op operand child fault} (hchild : Records environment operand child)
      (hrefused : op.Refuses child.outcome fault) : Lacks environment (.unary op operand) fault
  | binary {op left right first second fault} (hfirst : Records environment left first)
      (hsecond : Records environment right second)
      (hrefused : op.Refuses first.outcome second.outcome fault) :
      Lacks environment (.binary op left right) fault
  | call {arguments traces} (harguments : RecordsAll environment arguments traces)
      (hcount : arguments.length ≠ 1) :
      Lacks environment (.call .str arguments) (.argumentCount .str 1 arguments.length)

end Expr

/-- What a type mismatch has found is of none of the types that it wants. -/
theorem Expr.Lacks.typeName_notMem {environment : Environment} {expr : Expr} {operation : Operation}
    {expected : OperandType} {found : Value}
    (h : expr.Lacks environment (.typeMismatch operation expected found)) :
    found.typeName ∉ expected.typeNames := by
  cases h with
  | unary _ hrefused =>
      cases hrefused with
      | operand htype => exact htype
  | binary _ _ hrefused =>
      cases hrefused with
      | left htype => exact htype
      | right _ htype => exact htype

section FirstFault

variable {environment : Environment} {expr : Expr} {fault : Fault}

theorem Records.hasValue {trace : Trace} (h : Records environment expr trace) :
    expr.HasValue environment := ⟨trace, by rw [h.eval_eq]⟩

theorem Expr.Faults.not_hasValue {lines : List String} (h : expr.Faults environment lines fault) :
    ¬ expr.HasValue environment := by
  rintro ⟨trace, hresult⟩
  rw [h.eval_eq] at hresult
  cases hresult

theorem Records.decides_eq {op : BinaryOp} {first : Trace} (h : Records environment expr first) :
    expr.decides environment op = decide (op.DecidedBy first.outcome) := by
  rw [Expr.decides, h.eval_eq]

theorem Records.visits_of_decided {op : BinaryOp} {right : Expr} {first : Trace}
    (h : Records environment expr first) (hdecided : op.DecidedBy first.outcome) :
    (Expr.binary op expr right).visits environment
      = expr.visits environment ++ [.binary op expr right] := by
  rw [Expr.visits, h.decides_eq, if_pos (decide_eq_true hdecided), List.append_nil]

theorem Records.visits_of_open {op : BinaryOp} {right : Expr} {first : Trace}
    (h : Records environment expr first) (hopen : ¬ op.DecidedBy first.outcome) :
    (Expr.binary op expr right).visits environment
      = expr.visits environment ++ (right.visits environment ++ [.binary op expr right]) := by
  rw [Expr.visits, h.decides_eq, if_neg (by simpa using hopen), List.append_assoc]

theorem RecordsAll.length_eq {arguments : List Expr} {traces : List Trace}
    (h : RecordsAll environment arguments traces) : traces.length = arguments.length := by
  induction arguments generalizing traces with
  | nil =>
      cases h
      rfl
  | cons argument rest ih =>
      cases h with
      | cons hfirst hrest => rw [List.length_cons, List.length_cons, ih hrest]

theorem RecordsAll.hasValue {arguments : List Expr} {traces : List Trace}
    (h : RecordsAll environment arguments traces) :
    ∀ argument ∈ arguments, argument.HasValue environment := by
  induction arguments generalizing traces with
  | nil => simp
  | cons argument rest ih =>
      cases h with
      | cons hfirst hrest => exact List.forall_mem_cons.mpr ⟨hfirst.hasValue, ih hrest⟩

mutual

/-- All that is gone over on the way to a value has a value. -/
theorem Records.hasValue_of_mem_visits :
    ∀ {expr trace}, Records environment expr trace →
      ∀ part ∈ expr.visits environment, part.HasValue environment
  | _, _, .literal value => by
      rw [Expr.visits, List.forall_mem_singleton]
      exact (Records.literal value).hasValue
  | _, _, .var hvalue => by
      rw [Expr.visits, List.forall_mem_singleton]
      exact (Records.var hvalue).hasValue
  | _, _, .unary hchild houtcome => by
      rw [Expr.visits, List.forall_mem_append, List.forall_mem_singleton]
      exact ⟨hchild.hasValue_of_mem_visits, (Records.unary hchild houtcome).hasValue⟩
  | _, _, .decided hfirst hdecided houtcome => by
      rw [hfirst.visits_of_decided hdecided, List.forall_mem_append, List.forall_mem_singleton]
      exact ⟨hfirst.hasValue_of_mem_visits, (Records.decided hfirst hdecided houtcome).hasValue⟩
  | _, _, .binary hfirst hopen hsecond houtcome => by
      rw [hfirst.visits_of_open hopen, List.forall_mem_append, List.forall_mem_append,
        List.forall_mem_singleton]
      exact ⟨hfirst.hasValue_of_mem_visits, hsecond.hasValue_of_mem_visits,
        (Records.binary hfirst hopen hsecond houtcome).hasValue⟩
  | _, _, .call harguments houtcome => by
      rw [Expr.visits, List.forall_mem_append, List.forall_mem_singleton]
      exact ⟨harguments.hasValue_of_mem_visitsAll, (Records.call harguments houtcome).hasValue⟩

theorem RecordsAll.hasValue_of_mem_visitsAll :
    ∀ {arguments traces}, RecordsAll environment arguments traces →
      ∀ part ∈ Expr.visitsAll environment arguments, part.HasValue environment
  | _, _, .nil => by simp [Expr.visitsAll]
  | _, _, .cons hfirst hrest => by
      rw [Expr.visitsAll, List.forall_mem_append]
      exact ⟨hfirst.hasValue_of_mem_visits, hrest.hasValue_of_mem_visitsAll⟩

end

/-! ### The first part without a value -/

def FaultsFirst (environment : Environment) (parts : List Expr) (fault : Fault) : Prop :=
  ∃ before part after, parts = before ++ part :: after
    ∧ (∀ earlier ∈ before, earlier.HasValue environment)
    ∧ (∀ operand ∈ part.children, operand.HasValue environment)
    ∧ ¬ part.HasValue environment ∧ part.Lacks environment fault

namespace FaultsFirst

variable {parts : List Expr}

theorem append (h : FaultsFirst environment parts fault) (more : List Expr) :
    FaultsFirst environment (parts ++ more) fault := by
  obtain ⟨before, part, after, rfl, hpart⟩ := h
  exact ⟨before, part, after ++ more, by simp, hpart⟩

/-- Parts with values in front do not matter. -/
theorem preceded {front : List Expr} (hfront : ∀ part ∈ front, part.HasValue environment)
    (h : FaultsFirst environment parts fault) : FaultsFirst environment (front ++ parts) fault := by
  obtain ⟨before, part, after, rfl, hbefore, hpart⟩ := h
  refine ⟨front ++ before, part, after, by simp, ?_, hpart⟩
  exact List.forall_mem_append.mpr ⟨hfront, hbefore⟩

theorem own {lines : List String} (hfaults : expr.Faults environment lines fault)
    (hoperands : ∀ operand ∈ expr.children, operand.HasValue environment)
    (hlacks : expr.Lacks environment fault) : FaultsFirst environment [expr] fault :=
  ⟨[], expr, [], rfl, by simp, hoperands, hfaults.not_hasValue, hlacks⟩

end FaultsFirst

mutual

/-- A fault is that of the first part without a value, by induction on how it came about. -/
theorem Expr.Faults.faultsFirst :
    ∀ {expr lines fault}, Expr.Faults environment expr lines fault →
      FaultsFirst environment (expr.visits environment) fault
  | _, _, _, .unbound hvalue => by
      rw [visits]
      exact .own (.unbound hvalue) (by simp [children]) (.unbound hvalue)
  | _, _, _, .operand h => by
      rw [visits]
      exact h.faultsFirst.append _
  | _, _, _, .unary hchild hfault => by
      rw [visits]
      refine .preceded hchild.hasValue_of_mem_visits ?_
      refine .own (.unary hchild hfault) ?_ (.unary hchild (UnaryOp.refuses_of_apply hfault))
      simpa [children] using hchild.hasValue
  | _, _, _, .left h => by
      rw [visits, List.append_assoc]
      exact h.faultsFirst.append _
  | _, _, _, .right hfirst hopen h => by
      rw [hfirst.visits_of_open hopen]
      exact (h.faultsFirst.append _).preceded hfirst.hasValue_of_mem_visits
  | _, _, _, .binary hfirst hopen hsecond hfault => by
      rw [hfirst.visits_of_open hopen]
      refine .preceded hfirst.hasValue_of_mem_visits ?_
      refine .preceded hsecond.hasValue_of_mem_visits ?_
      refine .own (.binary hfirst hopen hsecond hfault) ?_
        (.binary hfirst hsecond (BinaryOp.refuses_of_apply hfault))
      simpa [children] using ⟨hfirst.hasValue, hsecond.hasValue⟩
  | _, _, _, .argument h => by
      rw [visits]
      exact h.faultsFirst.append _
  | _, _, _, .call harguments hcount => by
      have hfaults := Expr.Faults.call harguments hcount
      rw [harguments.length_eq] at hcount hfaults ⊢
      rw [visits]
      refine .preceded harguments.hasValue_of_mem_visitsAll ?_
      exact .own hfaults harguments.hasValue (.call harguments hcount)

theorem Expr.FaultsAmong.faultsFirst :
    ∀ {arguments lines fault}, Expr.FaultsAmong environment arguments lines fault →
      FaultsFirst environment (visitsAll environment arguments) fault
  | _, _, _, .head h => by
      rw [visitsAll]
      exact h.faultsFirst.append _
  | _, _, _, .tail hfirst h => by
      rw [visitsAll]
      exact h.faultsFirst.preceded hfirst.hasValue_of_mem_visits

end

end FirstFault

/-- **Faults are genuine.** If an evaluation fails, then of the parts that it goes over there is a
first one without a value. The operands of that part have been evaluated, and the fault says what is
wrong with it. A type mismatch names the types that it wants, and what it has found is of another
one. -/
theorem fault_is_of_first_part_without_value {environment : Environment} {expr : Expr}
    {fault : Fault} (h : (expr.eval environment).result = .error fault) :
    ∃ before part after, expr.visits environment = before ++ part :: after
      ∧ (∀ earlier ∈ before, earlier.HasValue environment)
      ∧ (∀ operand ∈ part.children, operand.HasValue environment)
      ∧ ¬ part.HasValue environment ∧ part.Lacks environment fault
      ∧ ∀ operation expected found, fault = .typeMismatch operation expected found →
        expected.name = " or ".intercalate expected.typeNames
          ∧ found.typeName ∉ expected.typeNames := by
  cases heval : expr.eval environment with
  | mk lines result =>
      rw [heval] at h
      cases h
      obtain ⟨before, part, after, hparts, hbefore, hoperands, hvalue, hlacks⟩ :=
        (Expr.faults_of_eval heval).faultsFirst
      refine ⟨before, part, after, hparts, hbefore, hoperands, hvalue, hlacks, ?_⟩
      rintro operation expected found rfl
      exact ⟨expected.name_eq_intercalate, hlacks.typeName_notMem⟩

/-- In `(false && y || print(x) - true) / z` neither operand of the difference is a number, and the
left one is found. Neither `y`, which does not matter, nor `z`, which comes later, is complained
of. -/
theorem fault_is_of_first_part_without_value_difference :
    let environment := Environment.empty.set "x" (.text "a")
    let difference : Expr := .binary .subtract (.call .print [.var "x"]) (.literal (.bool true))
    let conjunction : Expr := .binary .and (.literal (.bool false)) (.var "y")
    let expr : Expr := .binary .divide (.binary .or conjunction difference) (.var "z")
    let fault : Fault := .typeMismatch (.binary .subtract) .number (.text "a")
    (expr.eval environment).result = .error fault
      ∧ expr.visits environment =
        [.literal (.bool false), conjunction, .var "x", .call .print [.var "x"],
          .literal (.bool true), difference, .binary .or conjunction difference, .var "z", expr]
      ∧ ∃ before part after, expr.visits environment = before ++ part :: after
        ∧ (∀ earlier ∈ before, earlier.HasValue environment)
        ∧ (∀ operand ∈ part.children, operand.HasValue environment)
        ∧ ¬ part.HasValue environment ∧ part.Lacks environment fault
        ∧ ∀ operation expected found, fault = .typeMismatch operation expected found →
          expected.name = " or ".intercalate expected.typeNames
            ∧ found.typeName ∉ expected.typeNames := by
  intro environment difference conjunction expr fault
  have hresult : (expr.eval environment).result = .error fault := rfl
  exact ⟨hresult, by decide +kernel, fault_is_of_first_part_without_value hresult⟩

end Flowchart
