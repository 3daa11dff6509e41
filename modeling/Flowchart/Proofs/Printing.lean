import Flowchart.Expr.Printer
import Flowchart.Proofs.Grammar

/-!
# Printed expressions and the grammar

The printer puts parentheses where the grammar needs them and nowhere else. What it prints of an
expression derives the expression again, and among all derivations of the expression at a level it
nests the least: around an operand that binds too loosely every derivation has a pair of parentheses,
because only the rule for parentheses goes back from a tight level to a loose one.
-/

namespace Flowchart

open Token (Kind)
open Grammar

def BinaryOp.mark : BinaryOp → Mark
  | or => .either
  | and => .both
  | equal => .equal
  | notEqual => .notEqual
  | less => .less
  | lessEqual => .lessEqual
  | greater => .greater
  | greaterEqual => .greaterEqual
  | add => .plus
  | subtract => .minus
  | multiply => .star
  | divide => .slash
  | modulo => .percent

def UnaryOp.mark : UnaryOp → Mark
  | negate => .minus
  | not => .bang

def Value.kind : Value → Kind
  | number x => .number x
  | text s => .text s
  | bool b => .bool b

def Grammar.Phrase.wrapped (needed : Bool) (phrase : Phrase) : Phrase :=
  if needed then
    { phrase with
      kinds := .mark .leftParen :: (phrase.kinds ++ [.mark .rightParen])
      nesting := phrase.nesting + 1 }
  else phrase

namespace Expr

mutual

def bare : Expr → Phrase
  | literal value => ⟨[value.kind], literal value, 0⟩
  | var name => ⟨[.name name], var name, 0⟩
  | unary op operand =>
    let inner := operand.bare.wrapped (operand.precedence < unaryPrecedence)
    ⟨.mark op.mark :: inner.kinds, unary op operand, inner.nesting + 1⟩
  | binary op left right =>
    let before := left.bare.wrapped (left.precedence < op.precedence)
    let after := right.bare.wrapped (right.precedence < op.precedence + 1)
    ⟨before.kinds ++ .mark op.mark :: after.kinds, binary op left right,
      max before.nesting after.nesting⟩
  | call function arguments =>
    ⟨.name function.name :: .mark .leftParen :: (listed (bareAll arguments) ++ [.mark .rightParen]),
      call function arguments, deepest (bareAll arguments) + 1⟩

def bareAll : List Expr → List Phrase
  | [] => []
  | argument :: rest => argument.bare :: bareAll rest

end

/-- What is printed of an expression where operators of at least the given precedence may stand
bare. -/
def phraseAt (context : Nat) (expr : Expr) : Phrase :=
  expr.bare.wrapped (expr.precedence < context)

end Expr

def Statement.kinds : Statement → List Kind
  | .assign target value => .name target :: .mark .assign :: value.bare.kinds
  | .eval expr => expr.bare.kinds

/-! ### Precedences -/

theorem BinaryOp.precedence_bounds (op : BinaryOp) : 1 ≤ op.precedence ∧ op.precedence ≤ 6 := by
  cases op <;> simp [precedence]

theorem BinaryOp.mark_mem_operators (op : BinaryOp) : (op.mark, op) ∈ operators op.precedence := by
  cases op <;> simp [mark, precedence, operators]

theorem UnaryOp.mark_mem_signs (op : UnaryOp) : (op.mark, op) ∈ signs := by
  cases op <;> simp [mark, signs]

theorem Expr.precedence_bounds (expr : Expr) : 1 ≤ expr.precedence ∧ expr.precedence ≤ 8 := by
  cases expr with
  | binary op left right =>
      have := op.precedence_bounds
      simp only [precedence]
      omega
  | _ => simp [precedence, unaryPrecedence, atomPrecedence]

/-! ### The printed phrase derives the expression -/

namespace Grammar

/-- What is derived at a level is derived at the looser ones. -/
theorem Derives.loosen {level lower nesting : Nat} {kinds : List Kind} {expr : Expr}
    (h : Derives level kinds expr nesting) (hle : lower ≤ level) :
    Derives lower kinds expr nesting := by
  induction level with
  | zero =>
      obtain rfl : lower = 0 := by omega
      exact h
  | succ level ih =>
      by_cases heq : lower = level + 1
      · rwa [heq]
      · exact ih (.tighter h) (by omega)

/-- A phrase that derives its expression at a level does so at every level with parentheses, and at
this one and looser ones without. -/
theorem derives_wrapped {phrase : Phrase} {level context : Nat} (hlevel : 1 ≤ level)
    (hcontext : context ≤ 8) (h : Derives level phrase.kinds phrase.expr phrase.nesting) :
    Derives context (phrase.wrapped (level < context)).kinds phrase.expr
      (phrase.wrapped (level < context)).nesting := by
  unfold Phrase.wrapped
  by_cases hneeded : level < context
  · simp only [hneeded, decide_true, if_true]
    exact (Derives.group (h.loosen hlevel)).loosen hcontext
  · simp only [hneeded, decide_false]
    exact h.loosen (by omega)

end Grammar

namespace Expr

@[simp] theorem expr_bare (expr : Expr) : expr.bare.expr = expr := by
  cases expr <;> rfl

@[simp] theorem map_expr_bareAll (exprs : List Expr) : (bareAll exprs).map Phrase.expr = exprs := by
  induction exprs with
  | nil => rfl
  | cons first rest ih => rw [bareAll, List.map_cons, ih, expr_bare]

theorem bareAll_eq_map (exprs : List Expr) : bareAll exprs = exprs.map bare := by
  induction exprs with
  | nil => rfl
  | cons first rest ih => rw [bareAll, List.map_cons, ih]

theorem derives_phraseAt_of_bare {expr : Expr} {context : Nat} (hcontext : context ≤ 8)
    (h : Derives expr.precedence expr.bare.kinds expr expr.bare.nesting) :
    Derives context (expr.phraseAt context).kinds expr (expr.phraseAt context).nesting := by
  have hwrapped :=
    @derives_wrapped expr.bare expr.precedence context expr.precedence_bounds.1 hcontext
  rw [expr_bare] at hwrapped
  exact hwrapped h

mutual

/-- What is printed is derived, by induction on the expression. -/
theorem derives_bare :
    ∀ expr : Expr, Derives expr.precedence expr.bare.kinds expr expr.bare.nesting
  | literal (.number x) => .number x
  | literal (.text s) => .text s
  | literal (.bool b) => .bool b
  | var name => .var name
  | unary op operand =>
      .sign op.mark_mem_signs (derives_phraseAt_of_bare (by decide) (derives_bare operand))
  | binary op left right => by
      have hop := op.precedence_bounds
      have hbefore : op.precedence ≤ 8 := by omega
      have hafter : op.precedence + 1 ≤ 8 := by omega
      exact .join op.mark_mem_operators (derives_phraseAt_of_bare hbefore (derives_bare left))
        (derives_phraseAt_of_bare hafter (derives_bare right))
  | call function arguments => by
      have hcall := Derives.call function (bareAll arguments) (derives_bareAll arguments)
      rw [map_expr_bareAll] at hcall
      exact hcall

theorem derives_bareAll : ∀ exprs : List Expr, ∀ phrase ∈ bareAll exprs,
    Derives 1 phrase.kinds phrase.expr phrase.nesting
  | [], _, hmem => absurd hmem (List.not_mem_nil)
  | first :: rest, phrase, hmem => by
      rcases List.mem_cons.mp hmem with rfl | hmem
      · rw [expr_bare]
        exact (derives_bare first).loosen first.precedence_bounds.1
      · exact derives_bareAll rest phrase hmem

end

/-! ### It nests the least -/

theorem nesting_phraseAt (expr : Expr) (context : Nat) :
    (expr.phraseAt context).nesting
      = if expr.precedence < context then expr.bare.nesting + 1 else expr.bare.nesting := by
  by_cases hcontext : expr.precedence < context <;> simp [phraseAt, Phrase.wrapped, hcontext]

theorem nesting_phraseAt_mono (expr : Expr) {context tighter : Nat} (hle : context ≤ tighter) :
    (expr.phraseAt context).nesting ≤ (expr.phraseAt tighter).nesting := by
  rw [nesting_phraseAt, nesting_phraseAt]
  split <;> split <;> omega

/-- Parentheses around the printed form make it one nesting deeper at most. -/
theorem nesting_phraseAt_le (expr : Expr) (context : Nat) :
    (expr.phraseAt context).nesting ≤ expr.bare.nesting + 1 := by
  rw [nesting_phraseAt]
  split <;> omega

theorem phraseAt_one (expr : Expr) : expr.phraseAt 1 = expr.bare := by
  have hbounds := expr.precedence_bounds
  have hbare : ¬ expr.precedence < 1 := by omega
  simp [phraseAt, Phrase.wrapped, hbare]

/-- No form of an expression nests less deeply than the printed one. -/
theorem nesting_phraseAt_le_of_derives {level nesting : Nat} {kinds : List Kind} {expr : Expr}
    (h : Derives level kinds expr nesting) : (expr.phraseAt level).nesting ≤ nesting := by
  induction h with
  | join hop _ _ ihleft ihright =>
      obtain ⟨-, rfl⟩ := mem_operators_iff.mp hop
      have hbare : ∀ op left right, phraseAt (BinaryOp.precedence op) (binary op left right)
          = bare (binary op left right) := by
        intro op left right
        simp [phraseAt, Phrase.wrapped, precedence]
      rw [hbare, bare]
      exact Nat.max_le.mpr ⟨Nat.le_trans ihleft (Nat.le_max_left _ _),
        Nat.le_trans ihright (Nat.le_max_right _ _)⟩
  | tighter _ ih => exact Nat.le_trans (nesting_phraseAt_mono _ (Nat.le_succ _)) ih
  | sign _ _ ih => exact Nat.succ_le_succ ih
  | group _ ih =>
      -- Only this rule goes from the tightest level back to the loosest, at the price of a nesting;
      -- the printer pays it at most once.
      rw [phraseAt_one] at ih
      exact Nat.le_trans (nesting_phraseAt_le _ 8) (Nat.succ_le_succ ih)
  | call function arguments _ ih =>
      refine Nat.succ_le_succ (deepest_le_iff.mpr fun phrase hmem => ?_)
      rw [bareAll_eq_map, List.map_map] at hmem
      obtain ⟨argument, hargument, rfl⟩ := List.mem_map.mp hmem
      have hnesting := ih argument hargument
      rw [phraseAt_one] at hnesting
      exact Nat.le_trans hnesting (deepest_le_iff.mp (Nat.le_refl _) argument hargument)
  | _ => exact Nat.le_refl 0

end Expr

namespace Grammar

/-- What is accepted is accepted again as it is printed. -/
theorem Accepts.bare {kinds : List Kind} {expr : Expr} (h : Accepts kinds expr) :
    Accepts expr.bare.kinds expr := by
  obtain ⟨⟨nesting, hnesting, hderives⟩, hheight⟩ := h
  have hleast := Expr.nesting_phraseAt_le_of_derives hderives
  rw [expr.phraseAt_one] at hleast
  exact ⟨⟨expr.bare.nesting, Nat.le_trans hleast hnesting,
    (Expr.derives_bare expr).loosen expr.precedence_bounds.1⟩, hheight⟩

/-- The printed form of a statement is accepted if any form is. -/
theorem AcceptsStatement.printed {kinds : List Kind} {statement : Statement}
    (h : AcceptsStatement kinds statement) : AcceptsStatement statement.kinds statement := by
  cases statement with
  | eval expr => exact Accepts.bare h
  | assign target value =>
      obtain ⟨valueKinds, -, hvalue⟩ := h
      exact ⟨value.bare.kinds, rfl, hvalue.bare⟩

end Grammar

end Flowchart
