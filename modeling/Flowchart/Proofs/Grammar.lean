import Flowchart.Expr.Parser

/-!
# The grammar of expressions

The rules of the language, written down without the parser. A derivation is indexed by the level it
is at, by the kinds of the tokens it covers, by the tree it builds, and by how deeply it nests. The
levels one to six hold the operators between two operands, the loosest first, and lean to the left;
level seven is an operand with operators before it, and level eight a primary.

No rule puts an opening parenthesis after an operand, so a name in front of one is never a variable.
-/

namespace Flowchart.Grammar

open Token (Kind)

def operators : Nat → List (Mark × BinaryOp)
  | 1 => [(.either, .or)]
  | 2 => [(.both, .and)]
  | 3 => [(.equal, .equal), (.notEqual, .notEqual)]
  | 4 => [(.less, .less), (.lessEqual, .lessEqual), (.greater, .greater),
      (.greaterEqual, .greaterEqual)]
  | 5 => [(.plus, .add), (.minus, .subtract)]
  | 6 => [(.star, .multiply), (.slash, .divide), (.percent, .modulo)]
  | _ => []

def signs : List (Mark × UnaryOp) := [(.minus, .negate), (.bang, .not)]

/-- What a derivation covers: the kinds of its tokens, its tree, and how deeply it nests. -/
structure Phrase where
  kinds : List Kind
  expr : Expr
  nesting : Nat

def listed (phrases : List Phrase) : List Kind :=
  [Kind.mark .comma].intercalate (phrases.map Phrase.kinds)

def deepest (phrases : List Phrase) : Nat := (phrases.map Phrase.nesting).foldr max 0

/-- At a level, tokens of these kinds make this tree. The last index is the greatest number of
parenthesis pairs, operators before an operand and calls that lie one within the other. -/
inductive Derives : Nat → List Kind → Expr → Nat → Prop
  | join {level mark op leftKinds rightKinds left right leftNesting rightNesting}
      (hop : (mark, op) ∈ operators level)
      (hleft : Derives level leftKinds left leftNesting)
      (hright : Derives (level + 1) rightKinds right rightNesting) :
      Derives level (leftKinds ++ .mark mark :: rightKinds) (.binary op left right)
        (max leftNesting rightNesting)
  | tighter {level kinds expr nesting} (h : Derives (level + 1) kinds expr nesting) :
      Derives level kinds expr nesting
  | sign {mark op kinds operand nesting} (hop : (mark, op) ∈ signs)
      (hoperand : Derives 7 kinds operand nesting) :
      Derives 7 (.mark mark :: kinds) (.unary op operand) (nesting + 1)
  | number (x : Float) : Derives 8 [.number x] (.literal (.number x)) 0
  | text (s : String) : Derives 8 [.text s] (.literal (.text s)) 0
  | bool (b : Bool) : Derives 8 [.bool b] (.literal (.bool b)) 0
  | var (name : String) : Derives 8 [.name name] (.var name) 0
  | group {kinds expr nesting} (h : Derives 1 kinds expr nesting) :
      Derives 8 (.mark .leftParen :: (kinds ++ [.mark .rightParen])) expr (nesting + 1)
  | call (function : Builtin) (arguments : List Phrase)
      (h : ∀ phrase ∈ arguments, Derives 1 phrase.kinds phrase.expr phrase.nesting) :
      Derives 8
        (.name function.name :: .mark .leftParen :: (listed arguments ++ [.mark .rightParen]))
        (.call function (arguments.map Phrase.expr)) (deepest arguments + 1)

/-- Tokens of these kinds make this expression within the two limits of the language. -/
def Accepts (kinds : List Kind) (expr : Expr) : Prop :=
  (∃ nesting ≤ 64, Derives 1 kinds expr nesting) ∧ expr.height ≤ 256

def AcceptsStatement (kinds : List Kind) : Statement → Prop
  | .eval expr => Accepts kinds expr
  | .assign target value =>
    ∃ valueKinds, kinds = .name target :: .mark .assign :: valueKinds ∧ Accepts valueKinds value

/-! ### The operators -/

/-- The operators of a level are those of its precedence. -/
theorem mem_operators_iff {level : Nat} {mark : Mark} {op : BinaryOp} :
    (mark, op) ∈ operators level ↔ BinaryOp.ofMark? mark = some op ∧ op.precedence = level := by
  constructor
  · intro h
    unfold operators at h
    split at h <;> simp only [List.mem_cons, Prod.mk.injEq, List.not_mem_nil, or_false] at h
    all_goals grind [BinaryOp.ofMark?, BinaryOp.precedence]
  · rintro ⟨hop, rfl⟩
    cases mark <;> simp only [BinaryOp.ofMark?, Option.some.injEq, reduceCtorEq] at hop
    all_goals subst hop; simp [operators, BinaryOp.precedence]

theorem level_lt_of_operator {level : Nat} {mark : Mark} {op : BinaryOp}
    (hop : (mark, op) ∈ operators level) : level < 7 := by
  obtain ⟨-, rfl⟩ := mem_operators_iff.mp hop
  cases op <;> simp [BinaryOp.precedence]

theorem ofKind?_eq_some_iff {level : Nat} {kind : Kind} {op : BinaryOp} :
    BinaryOp.ofKind? level kind = some op
      ↔ ∃ mark, kind = .mark mark ∧ (mark, op) ∈ operators level := by
  cases kind with
  | mark mark =>
      simp [BinaryOp.ofKind?, mem_operators_iff, Option.filter_eq_some_iff]
  | _ => simp [BinaryOp.ofKind?]

/-! ### What derivations cover -/

def Opens : Kind → Prop
  | .number _ | .text _ | .name _ | .bool _ => True
  | .mark mark => mark = .leftParen ∨ mark = .minus ∨ mark = .bang
  | .finish => False

/-- The kinds that stand around expressions and never in one. -/
def Delimits (kind : Kind) : Prop :=
  kind = .finish ∨ kind = .mark .semicolon ∨ kind = .mark .assign

/-- What is derived begins with a token that may open an operand. -/
theorem Derives.opens {level nesting : Nat} {kinds : List Kind} {expr : Expr}
    (h : Derives level kinds expr nesting) : ∃ first rest, kinds = first :: rest ∧ Opens first := by
  induction h with
  | join _ _ _ ihleft _ =>
      obtain ⟨first, rest, rfl, hopens⟩ := ihleft
      exact ⟨first, _, rfl, hopens⟩
  | tighter _ ih => exact ih
  | sign hop _ _ =>
      refine ⟨_, _, rfl, ?_⟩
      simp only [signs, List.mem_cons, Prod.mk.injEq, List.not_mem_nil, or_false] at hop
      rcases hop with ⟨rfl, -⟩ | ⟨rfl, -⟩ <;> simp [Opens]
  | group _ _ => exact ⟨_, _, rfl, .inl rfl⟩
  | _ => exact ⟨_, _, rfl, trivial⟩

theorem intercalate_cons {α : Type} (separator first : List α) (rest : List (List α)) :
    separator.intercalate (first :: rest) = first ++ rest.flatMap (separator ++ ·) := by
  induction rest generalizing first with
  | nil => simp
  | cons second rest ih =>
      rw [List.intercalate_cons_cons, ih, List.flatMap_cons, List.append_assoc, List.append_assoc]

theorem listed_cons (first : Phrase) (rest : List Phrase) :
    listed (first :: rest)
      = first.kinds ++ rest.flatMap fun phrase => .mark .comma :: phrase.kinds := by
  rw [listed, List.map_cons, intercalate_cons, List.flatMap_map]
  rfl

theorem deepest_le_iff {phrases : List Phrase} {bound : Nat} :
    deepest phrases ≤ bound ↔ ∀ phrase ∈ phrases, phrase.nesting ≤ bound := by
  induction phrases with
  | nil => simp [deepest]
  | cons first rest ih =>
      rw [List.forall_mem_cons, ← ih]
      exact Nat.max_le

theorem heightAll_le_iff {exprs : List Expr} {bound : Nat} :
    Expr.heightAll exprs ≤ bound ↔ ∀ expr ∈ exprs, expr.height ≤ bound := by
  induction exprs with
  | nil => simp [Expr.heightAll]
  | cons first rest ih =>
      rw [List.forall_mem_cons, ← ih, Expr.heightAll]
      exact Nat.max_le

theorem mem_listed {kind : Kind} {phrases : List Phrase} (h : kind ∈ listed phrases) :
    kind = .mark .comma ∨ ∃ phrase ∈ phrases, kind ∈ phrase.kinds := by
  cases phrases with
  | nil => simp [listed] at h
  | cons first rest =>
      simp only [listed_cons, List.mem_append, List.mem_flatMap, List.mem_cons] at h
      rcases h with hfirst | ⟨phrase, hmem, hcomma | hkind⟩
      · exact .inr ⟨first, by simp, hfirst⟩
      · exact .inl hcomma
      · exact .inr ⟨phrase, by simp [hmem], hkind⟩

theorem mem_listed_of_mem {kind : Kind} {phrase : Phrase} {phrases : List Phrase}
    (hphrase : phrase ∈ phrases) (hkind : kind ∈ phrase.kinds) : kind ∈ listed phrases := by
  cases phrases with
  | nil => cases hphrase
  | cons first rest =>
      rw [listed_cons, List.mem_append, List.mem_flatMap]
      rcases List.mem_cons.mp hphrase with rfl | hmem
      · exact .inl hkind
      · exact .inr ⟨phrase, hmem, List.mem_cons_of_mem _ hkind⟩

/-- None of the tokens that stand around expressions stands in one. -/
theorem Derives.not_delimits {level nesting : Nat} {kinds : List Kind} {expr : Expr}
    (h : Derives level kinds expr nesting) : ∀ kind ∈ kinds, ¬ Delimits kind := by
  induction h with
  | join hop _ _ ihleft ihright =>
      intro kind hmem
      rcases List.mem_append.mp hmem with hleft | hright
      · exact ihleft kind hleft
      · rcases List.mem_cons.mp hright with rfl | hright
        · rintro (hkind | hkind | hkind) <;> cases hkind <;>
            simp [mem_operators_iff, BinaryOp.ofMark?] at hop
        · exact ihright kind hright
  | tighter _ ih => exact ih
  | sign hop _ ih =>
      intro kind hmem
      rcases List.mem_cons.mp hmem with rfl | hmem
      · rintro (hkind | hkind | hkind) <;> cases hkind <;> simp [signs] at hop
      · exact ih kind hmem
  | group _ ih =>
      intro kind hmem
      simp only [List.mem_cons, List.mem_append, List.not_mem_nil, or_false] at hmem
      rcases hmem with rfl | hmem | rfl
      · simp [Delimits]
      · exact ih kind hmem
      · simp [Delimits]
  | call function arguments _ ih =>
      intro kind hmem
      simp only [List.mem_cons, List.mem_append, List.not_mem_nil, or_false] at hmem
      rcases hmem with rfl | rfl | hmem | rfl
      · simp [Delimits]
      · simp [Delimits]
      · rcases mem_listed hmem with rfl | ⟨phrase, hphrase, hkind⟩
        · simp [Delimits]
        · exact ih phrase hphrase kind hkind
      · simp [Delimits]
  | _ => simp [Delimits]

end Flowchart.Grammar
