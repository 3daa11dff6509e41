import Flowchart.Evaluation
import Flowchart.Proofs.Relexing

/-!
# How deep trees are gone through

Expressions are evaluated, printed and given back by recursion: what is done at a node is done with
what the parts of the node have come to, and each part is gone through in a call of its own. A layer
is a node with these results in the place of the parts, so a function on layers cannot look any
deeper than one call does.

A recursion that is only allowed so many calls within each other comes to its result exactly if the
tree is not taller than that.
-/

namespace Flowchart

/-- A node of an expression, with something in the place of each of its parts. -/
inductive Layer (α : Type) where
  | literal (value : Value)
  | var (name : String)
  | unary (op : UnaryOp) (operand : α)
  | binary (op : BinaryOp) (left right : α)
  | call (function : Builtin) (arguments : List α)

namespace Layer

variable {α β : Type}

def map (f : α → β) : Layer α → Layer β
  | literal value => literal value
  | var name => var name
  | unary op operand => unary op (f operand)
  | binary op left right => binary op (f left) (f right)
  | call function arguments => call function (arguments.map f)

def parts : Layer α → List α
  | literal _ | var _ => []
  | unary _ operand => [operand]
  | binary _ left right => [left, right]
  | call _ arguments => arguments

def complete? : Layer (Option α) → Option (Layer α)
  | literal value => some (literal value)
  | var name => some (var name)
  | unary op operand => operand.map (unary op)
  | binary op left right => left.bind fun first => right.map (binary op first)
  | call function arguments => (arguments.mapM id).map (call function)

/-! ### Evaluation, printing, and giving back -/

def inTurn : List (Printing α) → Printing (List α)
  | [] => pure []
  | first :: rest => do
    let a ← first
    let others ← inTurn rest
    pure (a :: others)

def eval (environment : Environment) : Layer (Printing Trace) → Printing Trace
  | literal value => pure (.literal value)
  | var name =>
    match environment.get? name with
    | some value => pure (.var name value)
    | none => .fail (.undefinedVariable name)
  | unary op operand => do
    let child ← operand
    let outcome ← .ofExcept (op.apply child.outcome)
    pure (.unary op.symbol child outcome)
  | binary op left right => do
    let first ← left
    match op.decidedBy? first.outcome with
    | some outcome => pure (.binary op.symbol first .skipped outcome)
    | none =>
      let second ← right
      let outcome ← .ofExcept (op.apply first.outcome second.outcome)
      pure (.binary op.symbol first second outcome)
  | call function arguments => do
    let traces ← inTurn arguments
    let outcome ← function.apply (traces.map Trace.outcome)
    pure (.call function.name traces outcome)

def renderAt (layer : Layer (Nat → String)) (context : Nat) : String :=
  match layer with
  | literal value => value.literal
  | var name => name
  | unary op operand =>
    parenthesized (unaryPrecedence < context) (op.symbol ++ operand unaryPrecedence)
  | binary op left right =>
    parenthesized (op.precedence < context)
      (left op.precedence ++ " " ++ op.symbol ++ " " ++ right (op.precedence + 1))
  | call function arguments =>
    function.name ++ "(" ++ ", ".intercalate (arguments.map (· 0)) ++ ")"

/-- A node is given back after all that belongs to its parts. -/
def released (layer : Layer (List (Layer Unit))) : List (Layer Unit) :=
  layer.parts.flatten ++ [layer.map fun _ => ()]

end Layer

namespace Expr

def layer : Expr → Layer Expr
  | literal value => .literal value
  | var name => .var name
  | unary op operand => .unary op operand
  | binary op left right => .binary op left right
  | call function arguments => .call function arguments

mutual

/-- The nodes of an expression in the order in which they are given back. -/
def released : Expr → List (Layer Unit)
  | literal value => [.literal value]
  | var name => [.var name]
  | unary op operand => operand.released ++ [.unary op ()]
  | binary op left right => left.released ++ right.released ++ [.binary op () ()]
  | call function arguments =>
    releasedAll arguments ++ [.call function (arguments.map fun _ => ())]

def releasedAll : List Expr → List (Layer Unit)
  | [] => []
  | argument :: rest => argument.released ++ releasedAll rest

end

/-- What a recursion comes to that does this at each node, unless there are more than so many calls
within each other. -/
def within {α : Type} (node : Layer α → α) : Nat → Expr → Option α
  | 0, _ => none
  | levels + 1, expr => (expr.layer.map (within node levels)).complete?.map node

/-- The function is the recursion that does this at each node. -/
def Recurses {α : Type} (node : Layer α → α) (f : Expr → α) : Prop :=
  ∀ expr, f expr = node (expr.layer.map f)

end Expr

/-! ### The three recursions -/

theorem Expr.evalAll_eq_inTurn (environment : Environment) (arguments : List Expr) :
    evalAll environment arguments = Layer.inTurn (arguments.map (eval environment)) := by
  induction arguments with
  | nil => rw [evalAll, List.map_nil, Layer.inTurn]
  | cons argument rest ih => rw [evalAll, ih, List.map_cons, Layer.inTurn]

/-- Evaluation looks at one node at a time. -/
theorem Expr.recurses_eval (environment : Environment) :
    Recurses (Layer.eval environment) (eval environment) := by
  intro expr
  cases expr with
  | call function arguments => rw [eval, evalAll_eq_inTurn, layer, Layer.map, Layer.eval]
  | _ =>
      rw [eval]
      rfl

/-- Printing looks at one node at a time. -/
theorem Expr.recurses_renderAt :
    Recurses Layer.renderAt fun expr context => expr.renderAt context := by
  intro expr
  funext context
  dsimp only
  cases expr with
  | call function arguments =>
      rw [renderAt, renderAll_eq_map, layer, Layer.map, Layer.renderAt, List.map_map]
      rfl
  | _ => rw [renderAt, layer, Layer.map, Layer.renderAt]

theorem Expr.releasedAll_eq_flatten (arguments : List Expr) :
    releasedAll arguments = (arguments.map released).flatten := by
  induction arguments with
  | nil => rw [releasedAll, List.map_nil, List.flatten_nil]
  | cons argument rest ih => rw [releasedAll, ih, List.map_cons, List.flatten_cons]

/-- Giving back looks at one node at a time. -/
theorem Expr.recurses_released : Recurses Layer.released released := by
  intro expr
  cases expr with
  | call function arguments =>
      rw [released, releasedAll_eq_flatten, Layer.released, layer]
      simp [Layer.map, Layer.parts, Function.comp_def]
  | _ => simp [released, Layer.released, layer, Layer.map, Layer.parts]

/-! ### As many calls as the tree is tall -/

section

variable {α β : Type}

theorem mapM_id_guarded (p : β → Prop) [DecidablePred p] (f : β → α) (xs : List β) :
    (xs.map fun x => if p x then some (f x) else none).mapM id
      = if ∀ x ∈ xs, p x then some (xs.map f) else none := by
  induction xs with
  | nil => rfl
  | cons x xs ih =>
      rw [List.map_cons, List.mapM_cons, ih]
      by_cases hx : p x
      · by_cases hxs : ∀ y ∈ xs, p y
        · rw [if_pos hxs, if_pos hx, if_pos (List.forall_mem_cons.mpr ⟨hx, hxs⟩)]
          rfl
        · rw [if_neg hxs, if_pos hx, if_neg fun h => hxs (List.forall_mem_cons.mp h).2]
          rfl
      · rw [if_neg hx, if_neg fun h => hx (List.forall_mem_cons.mp h).1]
        rfl

theorem Layer.complete?_guarded (p : β → Prop) [DecidablePred p] (f : β → α) (layer : Layer β) :
    (layer.map fun part => if p part then some (f part) else none).complete?
      = if ∀ part ∈ layer.parts, p part then some (layer.map f) else none := by
  cases layer with
  | literal | var => simp [map, parts, complete?]
  | unary op operand => by_cases h : p operand <;> simp [map, parts, complete?, h]
  | binary op left right =>
      by_cases hleft : p left
      · by_cases hright : p right <;> simp [map, parts, complete?, hleft, hright]
      · simp [map, parts, complete?, hleft]
  | call function arguments =>
      rw [map, parts, complete?, mapM_id_guarded]
      split <;> rfl

/-- A tree is as tall as its tallest part, and one taller. -/
theorem Expr.height_le_succ_iff {expr : Expr} {levels : Nat} :
    expr.height ≤ levels + 1 ↔ ∀ part ∈ expr.layer.parts, part.height ≤ levels := by
  cases expr with
  | call function arguments => simp [height, layer, Layer.parts, Grammar.heightAll_le_iff]
  | _ => simp [height, layer, Layer.parts]

theorem Expr.height_pos (expr : Expr) : 0 < expr.height := by
  cases expr <;> simp [height]

/-- A recursion takes as many calls within each other as the tree is tall. -/
theorem Expr.Recurses.within_eq {node : Layer α → α} {f : Expr → α} (h : Recurses node f)
    (levels : Nat) (expr : Expr) :
    expr.within node levels = if expr.height ≤ levels then some (f expr) else none := by
  -- The parts of a node may take one call less than the node itself.
  induction levels generalizing expr with
  | zero =>
      have hnot : ¬ expr.height ≤ 0 := Nat.not_le_of_gt expr.height_pos
      rw [within, if_neg hnot]
  | succ levels ih =>
      have hparts : within node levels
          = fun part => if part.height ≤ levels then some (f part) else none := funext ih
      rw [within, hparts, Layer.complete?_guarded]
      by_cases hheight : expr.height ≤ levels + 1
      · rw [if_pos hheight, if_pos (height_le_succ_iff.mp hheight), Option.map_some, ← h expr]
      · rw [if_neg hheight, if_neg (mt height_le_succ_iff.mpr hheight), Option.map_none]

/-- As many nested calls as a tree is tall are enough for it. -/
theorem Expr.Recurses.within_eq_some {node : Layer α → α} {f : Expr → α} (h : Recurses node f)
    {levels : Nat} {expr : Expr} (hheight : expr.height ≤ levels) :
    expr.within node levels = some (f expr) := by
  rw [h.within_eq, if_pos hheight]

end

end Flowchart
