import Flowchart.Proofs.Execution

/-!
# What a trace records

A trace has the shape of its expression: each of its nodes holds the symbol or the name of the node
it is the record of, and the outcome that the outcomes below it come to. Only the right operand of a
logical operator can be missing, and it is missing when the left one has decided. What was printed
on the way can be read off the trace, call by call.

`Records` says this by rules, one for each way in which a node is evaluated; evaluation leads to just
the traces that the rules allow.
-/

namespace Flowchart

/-! ### Operators and functions -/

def BinaryOp.DecidedBy (op : BinaryOp) (left : Value) : Prop :=
  op = .and ∧ left.isTruthy = false ∨ op = .or ∧ left.isTruthy = true

instance (op : BinaryOp) (left : Value) : Decidable (op.DecidedBy left) :=
  inferInstanceAs (Decidable (_ ∨ _))

inductive Builtin.Returns : Builtin → List Value → Value → Prop
  | printNothing : Returns .print [] (.text "")
  | print {first rest} : Returns .print (first :: rest) first
  | str {only} : Returns .str [only] (.text only.display)

def Builtin.printed (function : Builtin) (arguments : List Value) : List String :=
  match function with
  | print => [" ".intercalate (arguments.map Value.display)]
  | str => []

namespace BinaryOp

variable {op : BinaryOp} {left outcome : Value}

/-- An operator is decided by a left operand that makes the right one needless. -/
theorem decidedBy?_eq_some_iff :
    op.decidedBy? left = some outcome
      ↔ op.DecidedBy left ∧ op.apply left Trace.skipped.outcome = .ok outcome := by
  have hskipped : Trace.skipped.outcome.isTruthy = false := rfl
  cases op with
  | and | or =>
      cases hleft : left.isTruthy <;> simp [decidedBy?, DecidedBy, apply, hskipped, hleft]
  | _ => simp [decidedBy?, DecidedBy]

theorem decidedBy?_eq_none_iff : op.decidedBy? left = none ↔ ¬ op.DecidedBy left := by
  cases op with
  | and | or => cases hleft : left.isTruthy <;> simp [decidedBy?, DecidedBy, hleft]
  | _ => simp [decidedBy?, DecidedBy]

theorem ofSymbol?_symbol (op : BinaryOp) : ofSymbol? op.symbol = some op := by
  cases op <;> decide

/-- No two operators have the same symbol. -/
theorem symbol_inj {op other : BinaryOp} (h : op.symbol = other.symbol) : op = other := by
  have hsame := congrArg ofSymbol? h
  rw [ofSymbol?_symbol, ofSymbol?_symbol] at hsame
  exact Option.some.inj hsame

end BinaryOp

namespace Builtin

variable {function : Builtin} {arguments : List Value} {outcome : Value}

theorem Returns.apply_eq (h : function.Returns arguments outcome) :
    function.apply arguments = ⟨function.printed arguments, .ok outcome⟩ := by
  cases h <;> rfl

/-- A call that succeeds comes to what its function returns. -/
theorem returns_of_apply (h : (function.apply arguments).result = .ok outcome) :
    function.Returns arguments outcome := by
  cases function with
  | print =>
      cases arguments with
      | nil =>
          cases h
          exact .printNothing
      | cons first rest =>
          cases h
          exact .print
  | str =>
      match arguments, h with
      | [only], rfl => exact .str

end Builtin

/-! ### Records by rules -/

namespace Trace

mutual

/-- The lines of the calls of `print` in a trace, from left to right and arguments first. -/
def printed : Trace → List String
  | literal _ | var _ _ | skipped => []
  | unary _ operand _ => operand.printed
  | binary _ left right _ => left.printed ++ right.printed
  | call function arguments _ =>
    printedAll arguments
      ++ if function = Builtin.print.name then
          [" ".intercalate (arguments.map fun argument => argument.outcome.display)]
        else []

def printedAll : List Trace → List String
  | [] => []
  | argument :: rest => argument.printed ++ printedAll rest

end

theorem printed_call (function : Builtin) (arguments : List Trace) (outcome : Value) :
    (call function.name arguments outcome).printed
      = printedAll arguments ++ function.printed (arguments.map Trace.outcome) := by
  rw [printed]
  cases function with
  | print => simp [Builtin.printed, Function.comp_def]
  | str => simp [Builtin.printed, Builtin.name]

end Trace

mutual

inductive Records (environment : Environment) : Expr → Trace → Prop
  | literal (value : Value) : Records environment (.literal value) (.literal value)
  | var {name value} (hvalue : environment.get? name = some value) :
      Records environment (.var name) (.var name value)
  | unary {op operand child outcome} (hchild : Records environment operand child)
      (houtcome : op.apply child.outcome = .ok outcome) :
      Records environment (.unary op operand) (.unary op.symbol child outcome)
  | decided {op left right first outcome} (hfirst : Records environment left first)
      (hdecided : op.DecidedBy first.outcome)
      (houtcome : op.apply first.outcome Trace.skipped.outcome = .ok outcome) :
      Records environment (.binary op left right) (.binary op.symbol first .skipped outcome)
  | binary {op left right first second outcome} (hfirst : Records environment left first)
      (hopen : ¬ op.DecidedBy first.outcome) (hsecond : Records environment right second)
      (houtcome : op.apply first.outcome second.outcome = .ok outcome) :
      Records environment (.binary op left right) (.binary op.symbol first second outcome)
  | call {function arguments traces outcome} (harguments : RecordsAll environment arguments traces)
      (houtcome : function.Returns (traces.map Trace.outcome) outcome) :
      Records environment (.call function arguments) (.call function.name traces outcome)

inductive RecordsAll (environment : Environment) : List Expr → List Trace → Prop
  | nil : RecordsAll environment [] []
  | cons {argument rest trace traces} (hfirst : Records environment argument trace)
      (hrest : RecordsAll environment rest traces) :
      RecordsAll environment (argument :: rest) (trace :: traces)

end

/-! ### Evaluation records -/

namespace Printing

variable {α β : Type} {lines : List String}

theorem mk_ok_bind (a : α) (next : α → Printing β) :
    (⟨lines, .ok a⟩ >>= next) = (⟨lines ++ (next a).lines, (next a).result⟩ : Printing β) := rfl

variable {first : Printing α} {next : α → Printing β} {a : α} {more : List String}
  {result : Except Fault β}

theorem bind_eq_mk (hfirst : first = ⟨lines, .ok a⟩) (hnext : next a = ⟨more, result⟩) :
    (first >>= next) = ⟨lines ++ more, result⟩ := by
  rw [hfirst, mk_ok_bind, hnext]

/-- What prints nothing is followed by no lines. -/
theorem bind_eq_mk_of_silent (hfirst : first = ⟨lines, .ok a⟩) (hnext : next a = ⟨[], result⟩) :
    (first >>= next) = ⟨lines, result⟩ := by
  rw [bind_eq_mk hfirst hnext, List.append_nil]

end Printing

section Records

variable {environment : Environment}

mutual

/-- Evaluation comes to every record, and prints what the record says. -/
theorem Records.eval_eq :
    ∀ {expr trace}, Records environment expr trace →
      expr.eval environment = ⟨trace.printed, .ok trace⟩
  | _, _, .literal value => rfl
  | _, _, .var hvalue => by
      rw [Expr.eval, hvalue]
      rfl
  | _, _, .unary hchild houtcome => by
      rw [Expr.eval]
      exact Printing.bind_eq_mk_of_silent hchild.eval_eq (by rw [houtcome]; rfl)
  | _, _, .decided hfirst hdecided houtcome => by
      have hleft := BinaryOp.decidedBy?_eq_some_iff.mpr ⟨hdecided, houtcome⟩
      rw [Expr.eval]
      exact Printing.bind_eq_mk hfirst.eval_eq (by rw [hleft]; rfl)
  | _, _, .binary hfirst hopen hsecond houtcome => by
      have hleft := BinaryOp.decidedBy?_eq_none_iff.mpr hopen
      rw [Expr.eval]
      refine Printing.bind_eq_mk hfirst.eval_eq ?_
      rw [hleft]
      exact Printing.bind_eq_mk_of_silent hsecond.eval_eq (by rw [houtcome]; rfl)
  | _, _, .call harguments houtcome => by
      rw [Expr.eval, Trace.printed_call]
      refine Printing.bind_eq_mk harguments.evalAll_eq ?_
      exact Printing.bind_eq_mk_of_silent houtcome.apply_eq rfl

theorem RecordsAll.evalAll_eq :
    ∀ {arguments traces}, RecordsAll environment arguments traces →
      Expr.evalAll environment arguments = ⟨Trace.printedAll traces, .ok traces⟩
  | _, _, .nil => rfl
  | _, _, .cons hfirst hrest => by
      rw [Expr.evalAll]
      refine Printing.bind_eq_mk hfirst.eval_eq ?_
      exact Printing.bind_eq_mk_of_silent hrest.evalAll_eq rfl

end

mutual

/-- What an evaluation returns is its record. -/
theorem records_of_eval :
    ∀ {expr : Expr} {trace}, (expr.eval environment).result = .ok trace →
      Records environment expr trace
  | .literal value, _, h => by
      cases h
      exact .literal value
  | .var name, _, h => by
      rw [Expr.eval] at h
      split at h
      · cases h
        exact .var (by assumption)
      · cases h
  | .unary op operand, _, h => by
      obtain ⟨child, hchild, h⟩ := Printing.bind_eq_ok_iff.mp h
      obtain ⟨outcome, houtcome, h⟩ := Printing.bind_eq_ok_iff.mp h
      cases h
      exact .unary (records_of_eval hchild) houtcome
  | .binary op left right, _, h => by
      rw [Expr.eval] at h
      obtain ⟨first, hfirst, h⟩ := Printing.bind_eq_ok_iff.mp h
      cases hleft : op.decidedBy? first.outcome with
      | some outcome =>
          obtain ⟨hdecided, houtcome⟩ := BinaryOp.decidedBy?_eq_some_iff.mp hleft
          rw [hleft] at h
          cases h
          exact .decided (records_of_eval hfirst) hdecided houtcome
      | none =>
          rw [hleft] at h
          obtain ⟨second, hsecond, h⟩ := Printing.bind_eq_ok_iff.mp h
          obtain ⟨outcome, houtcome, h⟩ := Printing.bind_eq_ok_iff.mp h
          cases h
          have hopen := BinaryOp.decidedBy?_eq_none_iff.mp hleft
          exact .binary (records_of_eval hfirst) hopen (records_of_eval hsecond) houtcome
  | .call function arguments, _, h => by
      obtain ⟨traces, harguments, h⟩ := Printing.bind_eq_ok_iff.mp h
      obtain ⟨outcome, houtcome, h⟩ := Printing.bind_eq_ok_iff.mp h
      cases h
      exact .call (recordsAll_of_evalAll harguments) (Builtin.returns_of_apply houtcome)

theorem recordsAll_of_evalAll :
    ∀ {arguments traces}, (Expr.evalAll environment arguments).result = .ok traces →
      RecordsAll environment arguments traces
  | [], _, h => by
      cases h
      exact .nil
  | argument :: rest, _, h => by
      obtain ⟨first, hfirst, h⟩ := Printing.bind_eq_ok_iff.mp h
      obtain ⟨others, hothers, h⟩ := Printing.bind_eq_ok_iff.mp h
      cases h
      exact .cons (records_of_eval hfirst) (recordsAll_of_evalAll hothers)

end

/-- An evaluation returns exactly its record. -/
theorem eval_eq_ok_iff {expr : Expr} {trace : Trace} :
    (expr.eval environment).result = .ok trace ↔ Records environment expr trace :=
  ⟨records_of_eval, fun h => by rw [h.eval_eq]⟩

end Records

/-! ### Places -/

def Expr.children : Expr → List Expr
  | literal _ | var _ => []
  | unary _ operand => [operand]
  | binary _ left right => [left, right]
  | call _ arguments => arguments

def Trace.children : Trace → List Trace
  | literal _ | var _ _ | skipped => []
  | unary _ operand _ => [operand]
  | binary _ left right _ => [left, right]
  | call _ arguments _ => arguments

/-- The part of an expression that is found by going down to these children in turn. -/
def Expr.at? (expr : Expr) : List Nat → Option Expr
  | [] => some expr
  | i :: place => expr.children[i]?.bind (·.at? place)

def Trace.at? (trace : Trace) : List Nat → Option Trace
  | [] => some trace
  | i :: place => trace.children[i]?.bind (·.at? place)

namespace Trace

theorem at?_append (trace : Trace) (front back : List Nat) :
    trace.at? (front ++ back) = (trace.at? front).bind (·.at? back) := by
  induction front generalizing trace with
  | nil => rfl
  | cons i front ih =>
      rw [List.cons_append, at?, at?, Option.bind_assoc]
      exact congrArg _ (funext fun child => ih child)

theorem at?_skipped {place : List Nat} {record : Trace}
    (h : skipped.at? place = some record) : place = [] ∧ record = skipped := by
  cases place with
  | nil =>
      cases h
      exact ⟨rfl, rfl⟩
  | cons i place => cases h

end Trace

section Places

variable {environment : Environment} {expr : Expr} {trace : Trace}

theorem Records.ne_skipped (h : Records environment expr trace) : trace ≠ .skipped := by
  rintro rfl
  cases h

theorem Records.precedence_eq (h : Records environment expr trace) :
    trace.precedence = expr.precedence := by
  cases h with
  | decided | binary => simp [Trace.precedence, Expr.precedence, BinaryOp.ofSymbol?_symbol]
  | _ => rfl

theorem RecordsAll.getElem? {arguments : List Expr} {traces : List Trace}
    (h : RecordsAll environment arguments traces) {i : Nat} {child : Trace}
    (hchild : traces[i]? = some child) :
    ∃ part, arguments[i]? = some part ∧ Records environment part child := by
  induction i generalizing arguments traces with
  | zero =>
      cases h with
      | nil => cases hchild
      | cons hfirst hrest =>
          cases hchild
          exact ⟨_, rfl, hfirst⟩
  | succ i ih =>
      cases h with
      | nil => cases hchild
      | cons hfirst hrest => exact ih hrest hchild

/-- A child of a record is a record, unless it is the right operand of an operator that its left
operand has decided. -/
theorem Records.child (h : Records environment expr trace) {i : Nat} {child : Trace}
    (hchild : trace.children[i]? = some child) :
    (∃ part, expr.children[i]? = some part ∧ Records environment part child)
      ∨ child = .skipped ∧ i = 1 ∧ ∃ op first outcome,
        trace = .binary op.symbol first .skipped outcome ∧ BinaryOp.DecidedBy op first.outcome := by
  cases h with
  | literal | var => cases hchild
  | unary hoperand =>
      match i, hchild with
      | 0, rfl => exact .inl ⟨_, rfl, hoperand⟩
  | decided hfirst hdecided houtcome =>
      match i, hchild with
      | 0, rfl => exact .inl ⟨_, rfl, hfirst⟩
      | 1, rfl => exact .inr ⟨rfl, rfl, _, _, _, rfl, hdecided⟩
  | binary hfirst hopen hsecond =>
      match i, hchild with
      | 0, rfl => exact .inl ⟨_, rfl, hfirst⟩
      | 1, rfl => exact .inl ⟨_, rfl, hsecond⟩
  | call harguments => exact .inl (harguments.getElem? hchild)

/-- At each place of a record there is the record of the part at that place, or nothing was
evaluated there. -/
theorem Records.at? (h : Records environment expr trace) {place : List Nat} {record : Trace}
    (hat : trace.at? place = some record) (hevaluated : record ≠ .skipped) :
    ∃ part, expr.at? place = some part ∧ Records environment part record := by
  induction place generalizing expr trace with
  | nil =>
      cases hat
      exact ⟨expr, rfl, h⟩
  | cons i place ih =>
      obtain ⟨child, hchild, hat⟩ := Option.bind_eq_some_iff.mp hat
      rcases h.child hchild with ⟨part, hpart, hrecords⟩ | ⟨rfl, -⟩
      · obtain ⟨found, hfound, hrecord⟩ := ih hrecords hat
        exact ⟨found, by rw [Expr.at?, hpart]; exact hfound, hrecord⟩
      · exact absurd (Trace.at?_skipped hat).2 hevaluated

/-- What is skipped is a right operand that the left one has made needless. -/
theorem Records.decided_of_skipped (h : Records environment expr trace) {place : List Nat}
    (hat : trace.at? place = some .skipped) :
    ∃ parent op first outcome, place = parent ++ [1]
      ∧ trace.at? parent = some (.binary op.symbol first .skipped outcome)
      ∧ BinaryOp.DecidedBy op first.outcome := by
  induction place generalizing expr trace with
  | nil =>
      cases hat
      exact absurd rfl h.ne_skipped
  | cons i place ih =>
      obtain ⟨child, hchild, hat⟩ := Option.bind_eq_some_iff.mp hat
      rcases h.child hchild with ⟨part, -, hrecords⟩ | ⟨rfl, rfl, op, first, outcome, rfl, hdecided⟩
      · obtain ⟨parent, op, first, outcome, rfl, hparent, hdecided⟩ := ih hrecords hat
        refine ⟨i :: parent, op, first, outcome, rfl, ?_, hdecided⟩
        rw [Trace.at?, hchild]
        exact hparent
      · obtain ⟨rfl, -⟩ := Trace.at?_skipped hat
        exact ⟨[], op, first, outcome, rfl, rfl, hdecided⟩

/-- A right operand that the left one makes needless is skipped. -/
theorem Records.skipped_of_decided (h : Records environment expr trace) {parent : List Nat}
    {op : BinaryOp} {first second : Trace} {outcome : Value}
    (hat : trace.at? parent = some (.binary op.symbol first second outcome))
    (hdecided : op.DecidedBy first.outcome) : trace.at? (parent ++ [1]) = some .skipped := by
  obtain ⟨part, -, hrecord⟩ := h.at? hat (by simp)
  rw [Trace.at?_append, hat]
  generalize hsymbol : op.symbol = symbol at hrecord
  cases hrecord with
  | decided => rfl
  | binary _ hopen =>
      rw [BinaryOp.symbol_inj hsymbol] at hdecided
      exact absurd hdecided hopen

end Places

/-- **Traces are faithful.** An evaluation comes to a trace just when the trace records it: node by
node, with the values of the variables, and with outcomes that come from the outcomes below them.
Every part that was evaluated holds together as tightly as its record, the operands that are missing
are the right ones that did not matter any more, and what was printed is what the calls of `print` in
the trace print, in their order. -/
theorem trace_is_faithful (environment : Environment) (expr : Expr) (trace : Trace) :
    ((expr.eval environment).result = .ok trace ↔ Records environment expr trace)
    ∧ ((expr.eval environment).result = .ok trace →
      (expr.eval environment).lines = trace.printed
      ∧ (∀ place record, trace.at? place = some record → record ≠ .skipped →
        ∃ part, expr.at? place = some part ∧ Records environment part record
          ∧ record.precedence = part.precedence)
      ∧ ∀ place, trace.at? place = some .skipped ↔ ∃ parent op first second outcome,
        place = parent ++ [1] ∧ trace.at? parent = some (.binary op.symbol first second outcome)
          ∧ BinaryOp.DecidedBy op first.outcome) := by
  refine ⟨eval_eq_ok_iff, fun hresult => ?_⟩
  have hrecords := records_of_eval hresult
  refine ⟨by rw [hrecords.eval_eq], fun place record hat hevaluated => ?_, fun place => ?_⟩
  · obtain ⟨part, hpart, hrecord⟩ := hrecords.at? hat hevaluated
    exact ⟨part, hpart, hrecord, hrecord.precedence_eq⟩
  · constructor
    · intro hat
      obtain ⟨parent, op, first, outcome, hplace, hparent, hdecided⟩ :=
        hrecords.decided_of_skipped hat
      exact ⟨parent, op, first, .skipped, outcome, hplace, hparent, hdecided⟩
    · rintro ⟨parent, op, first, second, outcome, rfl, hparent, hdecided⟩
      exact hrecords.skipped_of_decided hparent hdecided

/-- Of `false && y || print(x, "b")` the variable `y` is never looked up, and one line is printed. -/
theorem trace_is_faithful_skipped_operand :
    let environment := Environment.empty.set "x" (.text "a")
    let expr : Expr := .binary .or (.binary .and (.literal (.bool false)) (.var "y"))
      (.call .print [.var "x", .literal (.text "b")])
    let trace : Trace := .binary "||"
      (.binary "&&" (.literal (.bool false)) .skipped (.bool false))
      (.call "print" [.var "x" (.text "a"), .literal (.text "b")] (.text "a")) (.bool true)
    (expr.eval environment).result = .ok trace ∧ (expr.eval environment).lines = ["a b"]
      ∧ trace.at? [0, 1] = some .skipped := by
  intro environment expr trace
  have hvalue : environment.get? "x" = some (.text "a") := by decide
  have harguments : RecordsAll environment [.var "x", .literal (.text "b")]
      [.var "x" (.text "a"), .literal (.text "b")] :=
    .cons (.var hvalue) (.cons (.literal _) .nil)
  have hrecords : Records environment expr trace :=
    .binary (.decided (.literal _) (.inl ⟨rfl, rfl⟩) rfl) (by decide) (.call harguments .print) rfl
  obtain ⟨hiff, hfaithful⟩ := trace_is_faithful environment expr trace
  have hresult := hiff.mpr hrecords
  obtain ⟨hlines, -, hskipped⟩ := hfaithful hresult
  refine ⟨hresult, hlines, (hskipped [0, 1]).mpr ?_⟩
  exact ⟨[0], .and, .literal (.bool false), .skipped, .bool false, rfl, rfl, .inl ⟨rfl, rfl⟩⟩

end Flowchart
