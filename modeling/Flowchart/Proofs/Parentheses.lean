import Mathlib
import Flowchart.Proofs.RoundTrip

/-!
# Parentheses that can be left out

A pair of grouping parentheses is redundant if the tokens make the same tree without it. Of every
derivation of an expression the redundant pairs can be left out one after the other until what is
left is the printed form, and every step on the way derives the expression too. So the printed form
has the fewest parentheses, no pair of it can be left out, and tokens make the same tree exactly if
they differ in redundant pairs alone.
-/

namespace Flowchart

open Token (Kind)
open Grammar
open Relation (ReflTransGen TransGen EqvGen)

namespace Grammar

/-! ### Pairs of parentheses -/

inductive Balanced : List Kind → Prop
  | nil : Balanced []
  | other {kind rest} (hopen : kind ≠ .mark .leftParen) (hclose : kind ≠ .mark .rightParen)
      (h : Balanced rest) : Balanced (kind :: rest)
  | pair {inside rest} (hinside : Balanced inside) (h : Balanced rest) :
      Balanced (.mark .leftParen :: (inside ++ .mark .rightParen :: rest))

theorem Balanced.append {front back : List Kind} (h : Balanced front) (hmore : Balanced back) :
    Balanced (front ++ back) := by
  induction h with
  | nil => exact hmore
  | other hopen hclose _ ih => exact .other hopen hclose ih
  | pair hinside _ _ ih =>
      rw [List.cons_append, List.append_assoc, List.cons_append]
      exact .pair hinside ih

theorem Balanced.of_not_paren {kind : Kind} (hopen : kind ≠ .mark .leftParen)
    (hclose : kind ≠ .mark .rightParen) : Balanced [kind] :=
  .other hopen hclose .nil

theorem not_paren_of_operator {level : Nat} {mark : Mark} {op : BinaryOp}
    (hop : (mark, op) ∈ operators level) : mark ≠ .leftParen ∧ mark ≠ .rightParen := by
  obtain ⟨hof, -⟩ := mem_operators_iff.mp hop
  constructor <;> rintro rfl <;> cases hof

theorem mark_of_ofMark? {mark : Mark} {op : BinaryOp} (h : BinaryOp.ofMark? mark = some op) :
    op.mark = mark := by
  cases mark <;> cases h <;> rfl

theorem mark_of_mem_signs {mark : Mark} {op : UnaryOp} (hop : (mark, op) ∈ signs) :
    op.mark = mark := by
  simp only [signs, List.mem_cons, Prod.mk.injEq, List.not_mem_nil, or_false] at hop
  rcases hop with ⟨rfl, rfl⟩ | ⟨rfl, rfl⟩ <;> rfl

theorem not_paren_of_sign {mark : Mark} {op : UnaryOp} (hop : (mark, op) ∈ signs) :
    mark ≠ .leftParen ∧ mark ≠ .rightParen := by
  constructor <;> rintro rfl <;> simp [signs] at hop

theorem balanced_listed {phrases : List Phrase} (h : ∀ phrase ∈ phrases, Balanced phrase.kinds) :
    Balanced (listed phrases) := by
  cases phrases with
  | nil => exact .nil
  | cons first rest =>
      obtain ⟨hfirst, hrest⟩ := List.forall_mem_cons.mp h
      rw [listed_cons]
      refine hfirst.append ?_
      induction rest with
      | nil => exact .nil
      | cons second rest ih =>
          obtain ⟨hsecond, hothers⟩ := List.forall_mem_cons.mp hrest
          rw [List.flatMap_cons]
          refine Balanced.append (.other (by simp) (by simp) hsecond) (ih ?_ hothers)
          exact List.forall_mem_cons.mpr ⟨hfirst, hothers⟩

/-- In what is derived every parenthesis has its partner. -/
theorem Derives.balanced {level nesting : Nat} {kinds : List Kind} {expr : Expr}
    (h : Derives level kinds expr nesting) : Balanced kinds := by
  induction h with
  | join hop _ _ ihleft ihright =>
      obtain ⟨hopen, hclose⟩ := not_paren_of_operator hop
      exact ihleft.append (.other (by simpa using hopen) (by simpa using hclose) ihright)
  | tighter _ ih => exact ih
  | sign hop _ ih =>
      obtain ⟨hopen, hclose⟩ := not_paren_of_sign hop
      exact .other (by simpa using hopen) (by simpa using hclose) ih
  | group _ ih => exact .pair ih .nil
  | call function arguments _ ih =>
      exact .other (by simp) (by simp) (.pair (balanced_listed ih) .nil)
  | _ => exact .of_not_paren (by simp) (by simp)

/-- The first kinds are the second and one pair of grouping parentheses: the two belong together,
and no name stands before them, which would make them those of a call. -/
def Unwraps (kinds fewer : List Kind) : Prop :=
  ∃ before inside after, Balanced inside ∧ (∀ name, before.getLast? ≠ some (.name name))
    ∧ kinds = before ++ .mark .leftParen :: (inside ++ .mark .rightParen :: after)
    ∧ fewer = before ++ (inside ++ after)

theorem Unwraps.within {kinds fewer front : List Kind} (h : Unwraps kinds fewer)
    (hfront : ∀ name, front.getLast? ≠ some (.name name)) (back : List Kind) :
    Unwraps (front ++ (kinds ++ back)) (front ++ (fewer ++ back)) := by
  obtain ⟨before, inside, after, hinside, hbefore, rfl, rfl⟩ := h
  refine ⟨front ++ before, inside, after ++ back, hinside, fun name => ?_, by simp, by simp⟩
  rw [List.getLast?_append]
  have hname := hbefore name
  cases hlast : before.getLast? with
  | none => exact hfront name
  | some kind =>
      rw [hlast] at hname
      exact hname

/-- Each pair that is left out is one parenthesis less. -/
theorem Unwraps.count {kinds fewer : List Kind} (h : Unwraps kinds fewer) :
    kinds.count (.mark .leftParen) = fewer.count (.mark .leftParen) + 1 := by
  obtain ⟨before, inside, after, -, -, rfl, rfl⟩ := h
  simp only [List.count_append, List.count_cons_self]
  rw [List.count_cons_of_ne (by simp)]
  omega

theorem count_le_of_unwraps {kinds fewer : List Kind} (h : ReflTransGen Unwraps kinds fewer) :
    fewer.count (.mark .leftParen) ≤ kinds.count (.mark .leftParen) := by
  induction h with
  | refl => exact Nat.le_refl _
  | tail _ hstep ih =>
      have hcount := hstep.count
      omega

theorem count_lt_of_unwraps {kinds fewer : List Kind} (h : TransGen Unwraps kinds fewer) :
    fewer.count (.mark .leftParen) < kinds.count (.mark .leftParen) := by
  obtain ⟨next, hsteps, hlast⟩ := TransGen.tail'_iff.mp h
  have hcount := hlast.count
  have hle := count_le_of_unwraps hsteps
  omega

/-! ### Steps that keep the tree -/

def DerivesWithin (level : Nat) (expr : Expr) (bound : Nat) (kinds : List Kind) : Prop :=
  ∃ nesting ≤ bound, Derives level kinds expr nesting

/-- A pair of parentheses is left out, and the expression is derived before and after. -/
def Sheds (level : Nat) (expr : Expr) (bound : Nat) (kinds fewer : List Kind) : Prop :=
  Unwraps kinds fewer ∧ DerivesWithin level expr bound kinds ∧ DerivesWithin level expr bound fewer

/-- What is left out of a part is left out of the whole. -/
theorem sheds_within {level outer bound room : Nat} {expr whole : Expr}
    {kinds fewer : List Kind} (front back : List Kind)
    (h : ReflTransGen (Sheds level expr bound) kinds fewer)
    (hfront : ∀ name, front.getLast? ≠ some (.name name))
    (hwhole : ∀ part, DerivesWithin level expr bound part →
      DerivesWithin outer whole room (front ++ (part ++ back))) :
    ReflTransGen (Sheds outer whole room) (front ++ (kinds ++ back)) (front ++ (fewer ++ back)) :=
  h.lift (fun part => front ++ (part ++ back)) fun _ _ hstep =>
    ⟨hstep.1.within hfront back, hwhole _ hstep.2.1, hwhole _ hstep.2.2⟩

theorem sheds_mono {level outer bound room : Nat} {expr : Expr} {kinds fewer : List Kind}
    (h : ReflTransGen (Sheds level expr bound) kinds fewer)
    (hweaker : ∀ part, DerivesWithin level expr bound part → DerivesWithin outer expr room part) :
    ReflTransGen (Sheds outer expr room) kinds fewer := by
  have hsame := sheds_within [] [] h (by simp) fun part hpart => by
    simpa using hweaker part hpart
  simpa using hsame

end Grammar

namespace Expr

/-- The printed form is derived where it is printed. -/
theorem derives_phraseAt {expr : Expr} {context : Nat} (hcontext : context ≤ 8) :
    Derives context (expr.phraseAt context).kinds expr (expr.phraseAt context).nesting :=
  derives_phraseAt_of_bare hcontext (derives_bare expr)

theorem phraseAt_of_le {expr : Expr} {context : Nat} (h : context ≤ expr.precedence) :
    expr.phraseAt context = expr.bare := by
  rw [phraseAt, decide_eq_false (Nat.not_lt.mpr h)]
  rfl

theorem phraseAt_of_lt {expr : Expr} {context : Nat} (h : expr.precedence < context) :
    (expr.phraseAt context).kinds
      = .mark .leftParen :: (expr.bare.kinds ++ [.mark .rightParen]) := by
  rw [phraseAt, decide_eq_true h]
  rfl

theorem unwraps_grouped (expr : Expr) :
    Unwraps (.mark .leftParen :: (expr.bare.kinds ++ [.mark .rightParen])) expr.bare.kinds :=
  ⟨[], expr.bare.kinds, [], (derives_bare expr).balanced, by simp, rfl, by simp⟩

/-- The printed form nests no deeper than any other. -/
theorem derivesWithin_phraseAt {level nesting : Nat} {kinds : List Kind} {expr : Expr}
    (hlevel : level ≤ 8) (h : Derives level kinds expr nesting) :
    DerivesWithin level expr nesting (expr.phraseAt level).kinds :=
  ⟨_, nesting_phraseAt_le_of_derives h, derives_phraseAt hlevel⟩

end Expr

namespace Grammar

theorem Derives.level_le {level nesting : Nat} {kinds : List Kind} {expr : Expr}
    (h : Derives level kinds expr nesting) : level ≤ 8 := by
  induction h with
  | join hop _ _ _ _ =>
      obtain ⟨-, rfl⟩ := mem_operators_iff.mp hop
      exact Nat.le_trans (BinaryOp.precedence_bounds _).2 (by decide)
  | tighter _ ih => exact Nat.le_of_succ_le ih
  | _ => decide

theorem DerivesWithin.mono {level bound room : Nat} {expr : Expr} {kinds : List Kind}
    (h : DerivesWithin level expr bound kinds) (hle : bound ≤ room) :
    DerivesWithin level expr room kinds := by
  obtain ⟨nesting, hnesting, hderives⟩ := h
  exact ⟨nesting, Nat.le_trans hnesting hle, hderives⟩

theorem DerivesWithin.tighter {level bound : Nat} {expr : Expr} {kinds : List Kind}
    (h : DerivesWithin (level + 1) expr bound kinds) : DerivesWithin level expr bound kinds := by
  obtain ⟨nesting, hnesting, hderives⟩ := h
  exact ⟨nesting, hnesting, .tighter hderives⟩

theorem DerivesWithin.join {level bound : Nat} {mark : Mark} {op : BinaryOp} {left right : Expr}
    {leftKinds rightKinds : List Kind} (hop : (mark, op) ∈ operators level)
    (hleft : DerivesWithin level left bound leftKinds)
    (hright : DerivesWithin (level + 1) right bound rightKinds) :
    DerivesWithin level (.binary op left right) bound (leftKinds ++ .mark mark :: rightKinds) := by
  obtain ⟨leftNesting, hleftLe, hleft⟩ := hleft
  obtain ⟨rightNesting, hrightLe, hright⟩ := hright
  exact ⟨_, Nat.max_le.mpr ⟨hleftLe, hrightLe⟩, .join hop hleft hright⟩

/-- The arguments of a call with a comma after each of the first ones and before each of the last
ones. -/
theorem listed_append_cons (front back : List Phrase) (phrase : Phrase) :
    listed (front ++ phrase :: back)
      = front.flatMap (fun other => other.kinds ++ [.mark .comma]) ++
        (phrase.kinds ++ back.flatMap fun other => .mark .comma :: other.kinds) := by
  induction front with
  | nil => exact listed_cons phrase back
  | cons first front ih =>
      have hrest : ∀ rest : List Phrase, rest ≠ [] →
          listed (first :: rest) = first.kinds ++ .mark .comma :: listed rest := by
        intro rest hne
        obtain ⟨second, others, rfl⟩ := List.exists_cons_of_ne_nil hne
        rw [listed_cons, listed_cons, List.flatMap_cons, List.cons_append]
      rw [List.cons_append, hrest _ (by simp), ih]
      simp

def callKinds (function : Builtin) (arguments : List Phrase) : List Kind :=
  .name function.name :: .mark .leftParen :: (listed arguments ++ [.mark .rightParen])

theorem derivesWithin_call {function : Builtin} {arguments : List Phrase} {bound : Nat}
    (h : ∀ phrase ∈ arguments,
      phrase.nesting ≤ bound ∧ Derives 1 phrase.kinds phrase.expr phrase.nesting) :
    DerivesWithin 8 (.call function (arguments.map Phrase.expr)) (bound + 1)
      (callKinds function arguments) :=
  ⟨_, Nat.succ_le_succ (deepest_le_iff.mpr fun phrase hmem => (h phrase hmem).1),
    .call function arguments fun phrase hmem => (h phrase hmem).2⟩

/-- What is left out of one argument is left out of the call. -/
theorem sheds_argument (function : Builtin) {front back : List Phrase} {phrase less : Phrase}
    {bound : Nat}
    (hothers : ∀ other ∈ front ++ back,
      other.nesting ≤ bound ∧ Derives 1 other.kinds other.expr other.nesting)
    (h : ReflTransGen (Sheds 1 phrase.expr bound) phrase.kinds less.kinds) :
    ReflTransGen
      (Sheds 8 (.call function ((front ++ phrase :: back).map Phrase.expr)) (bound + 1))
      (callKinds function (front ++ phrase :: back))
      (callKinds function (front ++ less :: back)) := by
  have hsplit : ∀ part : Phrase, callKinds function (front ++ part :: back)
      = (.name function.name :: .mark .leftParen
            :: front.flatMap fun other => other.kinds ++ [.mark .comma])
          ++ (part.kinds ++ ((back.flatMap fun other => .mark .comma :: other.kinds)
            ++ [.mark .rightParen])) := by
    intro part
    rw [callKinds, listed_append_cons]
    simp
  have hfront : ∀ name, (.name function.name :: .mark .leftParen
      :: front.flatMap fun other => other.kinds ++ [Kind.mark .comma]).getLast?
        ≠ some (.name name) := by
    intro name
    rcases List.eq_nil_or_concat front with rfl | ⟨most, last, rfl⟩
    · simp
    · rw [List.concat_eq_append, List.flatMap_append, List.flatMap_singleton, ← List.append_assoc,
        ← List.cons_append, ← List.cons_append, List.getLast?_concat]
      simp
  rw [hsplit, hsplit]
  refine sheds_within _ _ h hfront fun part hpart => ?_
  obtain ⟨nesting, hnesting, hderives⟩ := hpart
  have hall : ∀ other ∈ front ++ ⟨part, phrase.expr, nesting⟩ :: back,
      other.nesting ≤ bound ∧ Derives 1 other.kinds other.expr other.nesting := by
    intro other hmem
    simp only [List.mem_append, List.mem_cons] at hmem hothers
    rcases hmem with hmem | rfl | hmem
    · exact hothers other (.inl hmem)
    · exact ⟨hnesting, hderives⟩
    · exact hothers other (.inr hmem)
  have hcall := @derivesWithin_call function _ bound hall
  rw [hsplit, List.map_append, List.map_cons] at hcall
  rwa [List.map_append, List.map_cons]

/-- On its own the printed form nests no deeper than any other. -/
theorem Derives.bare_nesting_le {nesting : Nat} {kinds : List Kind} {expr : Expr}
    (h : Derives 1 kinds expr nesting) : expr.bare.nesting ≤ nesting := by
  have hleast := Expr.nesting_phraseAt_le_of_derives h
  rwa [Expr.phraseAt_one] at hleast

theorem Derives.bare {nesting : Nat} {kinds : List Kind} {expr : Expr}
    (h : Derives 1 kinds expr nesting) :
    expr.bare.nesting ≤ nesting ∧ Derives 1 expr.bare.kinds expr.bare.expr expr.bare.nesting := by
  rw [Expr.expr_bare]
  exact ⟨h.bare_nesting_le, (Expr.derives_bare expr).loosen expr.precedence_bounds.1⟩

/-- Argument by argument: those of the front are in their printed form already. -/
theorem sheds_arguments {function : Builtin} {front back : List Phrase} {bound : Nat}
    (hall : ∀ phrase ∈ front ++ back,
      phrase.nesting ≤ bound ∧ Derives 1 phrase.kinds phrase.expr phrase.nesting)
    (h : ∀ phrase ∈ back, ReflTransGen (Sheds 1 phrase.expr bound) phrase.kinds
      phrase.expr.bare.kinds) :
    ReflTransGen (Sheds 8 (.call function ((front ++ back).map Phrase.expr)) (bound + 1))
      (callKinds function (front ++ back))
      (callKinds function (front ++ back.map fun phrase => phrase.expr.bare)) := by
  induction back generalizing front with
  | nil => exact .refl
  | cons phrase back ih =>
      obtain ⟨hphrase, hback⟩ := List.forall_mem_cons.mp h
      have hothers : ∀ other ∈ front ++ back,
          other.nesting ≤ bound ∧ Derives 1 other.kinds other.expr other.nesting := by
        intro other hmem
        refine hall other ?_
        rcases List.mem_append.mp hmem with hmem | hmem
        · exact List.mem_append_left _ hmem
        · exact List.mem_append_right _ (List.mem_cons_of_mem _ hmem)
      obtain ⟨hnesting, hderives⟩ := hall phrase (by simp)
      obtain ⟨hleast, hbare⟩ := hderives.bare
      have hnext : ∀ other ∈ (front ++ [phrase.expr.bare]) ++ back,
          other.nesting ≤ bound ∧ Derives 1 other.kinds other.expr other.nesting := by
        intro other hmem
        simp only [List.append_assoc, List.mem_append, List.mem_singleton] at hmem hothers
        rcases hmem with hmem | rfl | hmem
        · exact hothers other (.inl hmem)
        · exact ⟨Nat.le_trans hleast hnesting, hbare⟩
        · exact hothers other (.inr hmem)
      have hrest := ih hnext hback
      simp only [List.append_assoc, List.singleton_append, List.map_append, List.map_cons,
        Expr.expr_bare] at hrest
      have hone := sheds_argument function hothers hphrase
      rw [List.map_append, List.map_cons] at hone ⊢
      exact hone.trans hrest

/-! ### One rule each -/

def ShedsToPrinted (level : Nat) (kinds : List Kind) (expr : Expr) (nesting : Nat) : Prop :=
  ReflTransGen (Sheds level expr nesting) kinds (expr.phraseAt level).kinds

/-- Operands shed their parentheses one after the other. -/
theorem sheds_join {level leftNesting rightNesting : Nat} {mark : Mark} {op : BinaryOp}
    {leftKinds rightKinds : List Kind} {left right : Expr} (hop : (mark, op) ∈ operators level)
    (hleft : Derives level leftKinds left leftNesting)
    (hright : Derives (level + 1) rightKinds right rightNesting)
    (hleftSheds : ShedsToPrinted level leftKinds left leftNesting)
    (hrightSheds : ShedsToPrinted (level + 1) rightKinds right rightNesting) :
    ShedsToPrinted level (leftKinds ++ .mark mark :: rightKinds) (.binary op left right)
      (max leftNesting rightNesting) := by
  obtain ⟨hmark, rfl⟩ := mem_operators_iff.mp hop
  have hprinted := Expr.derivesWithin_phraseAt hleft.level_le hleft
  have hfirst := sheds_within [] (.mark mark :: rightKinds) hleftSheds (by simp)
    fun part hpart => DerivesWithin.join hop (hpart.mono (Nat.le_max_left _ _))
      ⟨rightNesting, Nat.le_max_right _ _, hright⟩
  have hsecond := sheds_within ((left.phraseAt op.precedence).kinds ++ [.mark mark]) []
    hrightSheds (by simp) fun part hpart => by
      have hjoined := DerivesWithin.join hop (hprinted.mono (Nat.le_max_left _ _))
        (hpart.mono (Nat.le_max_right leftNesting _))
      simpa using hjoined
  have hkinds : ((Expr.binary op left right).phraseAt op.precedence).kinds
      = (left.phraseAt op.precedence).kinds
        ++ .mark mark :: (right.phraseAt (op.precedence + 1)).kinds := by
    rw [@Expr.phraseAt_of_le (.binary op left right) op.precedence (Nat.le_refl _),
      ← mark_of_ofMark? hmark]
    rfl
  simp only [List.nil_append, List.append_nil, List.append_assoc, List.singleton_append]
    at hfirst hsecond
  rw [ShedsToPrinted, hkinds]
  exact hfirst.trans hsecond

theorem sheds_tighter {level nesting : Nat} {kinds : List Kind} {expr : Expr}
    (h : Derives (level + 1) kinds expr nesting)
    (hsheds : ShedsToPrinted (level + 1) kinds expr nesting) :
    ShedsToPrinted level kinds expr nesting := by
  have hloose := sheds_mono hsheds fun _ hpart => hpart.tighter
  by_cases hprecedence : expr.precedence = level
  · -- At the tighter level the printed form has a pair around it that is not needed here.
    have hbefore := (Expr.derivesWithin_phraseAt h.level_le h).tighter
    have hafter := Expr.derivesWithin_phraseAt (Nat.le_of_succ_le h.level_le) (.tighter h)
    have hunwraps := expr.unwraps_grouped
    rw [← @Expr.phraseAt_of_lt expr (level + 1) (by omega)] at hunwraps
    rw [ShedsToPrinted]
    rw [Expr.phraseAt_of_le (by omega)] at hafter ⊢
    exact hloose.tail ⟨hunwraps, hbefore, hafter⟩
  · have hsame : expr.phraseAt level = expr.phraseAt (level + 1) := by
      have hiff : expr.precedence < level ↔ expr.precedence < level + 1 := by omega
      simp only [Expr.phraseAt, hiff]
    rw [ShedsToPrinted, hsame]
    exact hloose

theorem sheds_sign {nesting : Nat} {mark : Mark} {op : UnaryOp} {kinds : List Kind}
    {operand : Expr} (hop : (mark, op) ∈ signs) (h : ShedsToPrinted 7 kinds operand nesting) :
    ShedsToPrinted 7 (.mark mark :: kinds) (.unary op operand) (nesting + 1) := by
  have hsheds := sheds_within [.mark mark] [] h (by simp) fun part hpart => by
    obtain ⟨less, hless, hpart⟩ := hpart
    rw [List.append_nil]
    exact ⟨_, Nat.succ_le_succ hless, .sign hop hpart⟩
  have hkinds : ((Expr.unary op operand).phraseAt 7).kinds
      = .mark mark :: (operand.phraseAt 7).kinds := by
    rw [@Expr.phraseAt_of_le (.unary op operand) 7 (Nat.le_refl 7), ← mark_of_mem_signs hop]
    rfl
  rw [List.append_nil, List.append_nil] at hsheds
  rw [ShedsToPrinted, hkinds]
  exact hsheds

/-- The parentheses of a group are shed, unless they are printed. -/
theorem sheds_group {nesting : Nat} {kinds : List Kind} {expr : Expr}
    (h : Derives 1 kinds expr nesting) (hsheds : ShedsToPrinted 1 kinds expr nesting) :
    ShedsToPrinted 8 (.mark .leftParen :: (kinds ++ [.mark .rightParen])) expr (nesting + 1) := by
  have hinside := sheds_within [.mark .leftParen] [.mark .rightParen] hsheds (by simp)
    fun part hpart => by
      obtain ⟨less, hless, hpart⟩ := hpart
      exact ⟨_, Nat.succ_le_succ hless, .group hpart⟩
  rw [Expr.phraseAt_one] at hinside
  by_cases hneeded : expr.precedence < 8
  · rw [ShedsToPrinted, Expr.phraseAt_of_lt hneeded]
    exact hinside
  · have hatom : expr.precedence = 8 := Nat.le_antisymm expr.precedence_bounds.2 (by omega)
    have hbare := Expr.derives_bare expr
    rw [hatom] at hbare
    have hnesting := h.bare_nesting_le
    have hgrouped : DerivesWithin 8 expr (nesting + 1)
        (.mark .leftParen :: (expr.bare.kinds ++ [.mark .rightParen])) :=
      ⟨_, Nat.succ_le_succ hnesting, .group (hbare.loosen (by decide))⟩
    rw [ShedsToPrinted, Expr.phraseAt_of_le (by omega)]
    exact hinside.tail ⟨expr.unwraps_grouped, hgrouped, _, Nat.le_succ_of_le hnesting, hbare⟩

theorem sheds_call {function : Builtin} {arguments : List Phrase}
    (h : ∀ phrase ∈ arguments, Derives 1 phrase.kinds phrase.expr phrase.nesting)
    (hsheds : ∀ phrase ∈ arguments,
      ShedsToPrinted 1 phrase.kinds phrase.expr phrase.nesting) :
    ShedsToPrinted 8 (callKinds function arguments)
      (.call function (arguments.map Phrase.expr)) (deepest arguments + 1) := by
  have hdeepest := deepest_le_iff.mp (Nat.le_refl (deepest arguments))
  have hall := @sheds_arguments function [] arguments (deepest arguments)
    (fun phrase hmem => ⟨hdeepest phrase hmem, h phrase hmem⟩) fun phrase hmem => by
      have hphrase := hsheds phrase hmem
      rw [ShedsToPrinted, Expr.phraseAt_one] at hphrase
      exact sheds_mono hphrase fun _ hpart => hpart.mono (hdeepest phrase hmem)
  have hkinds : ((Expr.call function (arguments.map Phrase.expr)).phraseAt 8).kinds
      = callKinds function (arguments.map fun phrase => phrase.expr.bare) := by
    rw [@Expr.phraseAt_of_le (.call function _) 8 (Nat.le_refl 8), callKinds, Expr.bare,
      Expr.bareAll_eq_map, List.map_map]
    rfl
  rw [ShedsToPrinted, hkinds]
  exact hall

/-- **Shedding.** From what derives an expression at a level, redundant pairs of parentheses can be
left out one after the other until the printed form is left. -/
theorem Derives.sheds {level nesting : Nat} {kinds : List Kind} {expr : Expr}
    (h : Derives level kinds expr nesting) : ShedsToPrinted level kinds expr nesting := by
  induction h with
  | join hop hleft hright ihleft ihright => exact sheds_join hop hleft hright ihleft ihright
  | tighter h ih => exact sheds_tighter h ih
  | sign hop _ ih => exact sheds_sign hop ih
  | group h ih => exact sheds_group h ih
  | call function arguments h ih => exact sheds_call h ih
  | _ => exact .refl

/-! ### Redundant pairs -/

/-- A pair of grouping parentheses is left out that makes no difference to the tree. -/
def Redundant (kinds fewer : List Kind) : Prop :=
  Unwraps kinds fewer ∧ ∃ expr, Accepts kinds expr ∧ Accepts fewer expr

/-- Tokens make one expression at most. -/
theorem accepts_unique {kinds : List Kind} {expr other : Expr} (h : Accepts kinds expr)
    (hother : Accepts kinds other) : expr = other :=
  Statement.eval.inj (@acceptsStatement_unique _ (.eval expr) (.eval other) h hother)

/-- Leaving out needless pairs one by one leads to the printed form. -/
theorem Accepts.printed {kinds : List Kind} {expr : Expr} (h : Accepts kinds expr) :
    ReflTransGen Redundant kinds expr.bare.kinds := by
  obtain ⟨⟨nesting, hnesting, hderives⟩, hheight⟩ := h
  have hsheds := hderives.sheds
  rw [ShedsToPrinted, Expr.phraseAt_one] at hsheds
  have haccepts : ∀ part, DerivesWithin 1 expr nesting part → Accepts part expr := by
    rintro part ⟨less, hless, hpart⟩
    exact ⟨⟨less, Nat.le_trans hless hnesting, hpart⟩, hheight⟩
  exact ReflTransGen.mono (fun _ _ hstep =>
    ⟨hstep.1, expr, haccepts _ hstep.2.1, haccepts _ hstep.2.2⟩) _ _ hsheds

/-- Needless pairs make no difference to what is read. -/
theorem accepts_iff_of_redundant {kinds others : List Kind} (h : EqvGen Redundant kinds others)
    (expr : Expr) : Accepts kinds expr ↔ Accepts others expr := by
  induction h with
  | rel kinds others hstep =>
      obtain ⟨-, tree, hkinds, hothers⟩ := hstep
      constructor
      · intro h
        rwa [accepts_unique h hkinds]
      · intro h
        rwa [accepts_unique h hothers]
  | refl _ => exact Iff.rfl
  | symm _ _ _ ih => exact ih.symm
  | trans _ _ _ _ _ ihfirst ihsecond => exact ihfirst.trans ihsecond

theorem eqvGen_of_reflTransGen {α : Type} {r : α → α → Prop} {a b : α} (h : ReflTransGen r a b) :
    EqvGen r a b := by
  induction h with
  | refl => exact .refl a
  | tail _ hstep ih => exact .trans _ _ _ ih (.rel _ _ hstep)

/-- Tokens make the same tree exactly if they differ in redundant pairs alone. -/
theorem Accepts.iff_redundant {kinds others : List Kind} {expr : Expr} (h : Accepts kinds expr) :
    Accepts others expr ↔ EqvGen Redundant kinds others := by
  constructor
  · intro hothers
    exact .trans _ _ _ (eqvGen_of_reflTransGen h.printed)
      (.symm _ _ (eqvGen_of_reflTransGen hothers.printed))
  · intro hsame
    exact (accepts_iff_of_redundant hsame expr).mp h

end Grammar

/-! ### Sources -/

/-- The tokens of a source are of these kinds, its end mark left out. -/
def Token.Holds (source : String) (kinds : List Kind) : Prop :=
  ∃ tokens, scan source = .ok tokens ∧ tokens.map Token.kind = kinds ++ [.finish]

theorem Token.Holds.unique {source : String} {kinds others : List Kind} (h : Holds source kinds)
    (hothers : Holds source others) : kinds = others := by
  obtain ⟨tokens, hscan, hkinds⟩ := h
  obtain ⟨same, hsame, hothers⟩ := hothers
  obtain rfl : tokens = same := Except.ok.inj (hscan.symm.trans hsame)
  exact List.append_cancel_right (hkinds.symm.trans hothers)

/-- An expression is read from a source exactly if its tokens make it. -/
theorem Expr.parse_eq_ok_iff {source : String} {expr : Expr} :
    Expr.parse source = .ok expr ↔ ∃ kinds, Token.Holds source kinds ∧ Accepts kinds expr := by
  rw [Expr.parse, bind_eq_ok_iff]
  constructor
  · rintro ⟨tokens, hscan, hparse⟩
    obtain ⟨body, rfl, hbody⟩ := (Token.scans_of_scanFrom hscan).ended
    exact ⟨_, ⟨_, hscan, by simp⟩, (Expr.ofTokens_eq_ok_iff rfl hbody expr).mp hparse⟩
  · rintro ⟨kinds, ⟨tokens, hscan, hkinds⟩, haccepts⟩
    obtain ⟨body, rfl, hbody⟩ := (Token.scans_of_scanFrom hscan).ended
    rw [List.map_append] at hkinds
    obtain rfl := List.append_cancel_right hkinds
    exact ⟨_, hscan, (Expr.ofTokens_eq_ok_iff rfl hbody expr).mpr haccepts⟩

theorem Expr.parse_eq_ok_iff_of_holds {source : String} {kinds : List Kind}
    (h : Token.Holds source kinds) (expr : Expr) :
    Expr.parse source = .ok expr ↔ Accepts kinds expr := by
  rw [Expr.parse_eq_ok_iff]
  constructor
  · rintro ⟨others, hothers, haccepts⟩
    rwa [h.unique hothers]
  · exact fun haccepts => ⟨kinds, h, haccepts⟩

/-- The printed text of an expression that a source holds is scanned as what is printed. -/
theorem Expr.holds_render {source : String} {expr : Expr} (h : Expr.parse source = .ok expr)
    (hplain : ∀ value ∈ expr.literals, value.IsPlain) :
    Token.Holds expr.render expr.bare.kinds := by
  obtain ⟨kinds, ⟨tokens, hscan, hkinds⟩, haccepts⟩ := Expr.parse_eq_ok_iff.mp h
  have hwritable : ∀ kind ∈ kinds, kind.Writable := by
    intro kind hmem
    have hscanned : kind ∈ tokens.map Token.kind := by
      rw [hkinds]
      exact List.mem_append_left _ hmem
    obtain ⟨token, htoken, rfl⟩ := List.mem_map.mp hscanned
    exact Token.writable_scanFrom hscan token htoken
  have hrelexes := Expr.relexes_render (haccepts.readsBack hwritable hplain)
  have hnil : Token.Breaks [] := by simp [Token.Breaks]
  obtain ⟨printed, hprinted, hsame⟩ := hrelexes.scans hnil Token.scansTo_nil 0
  rw [List.append_nil] at hprinted
  exact ⟨printed, hprinted, hsame⟩

/-- **Minimal parentheses.** If the literals of an expression that a source holds are plain, then
the tokens of its printed form are those of the source without some pairs of grouping parentheses,
and the printed form holds the expression too. No source of the expression has fewer parentheses,
and without one more pair the printed form does not hold it. Any source holds the expression exactly
if its tokens differ from the given ones in redundant pairs alone. -/
theorem printed_parentheses_are_minimal {source : String} {expr : Expr}
    (h : Expr.parse source = .ok expr) :
    ∃ kinds, Token.Holds source kinds
      ∧ ((∀ value ∈ expr.literals, value.IsPlain) →
        ∃ printed, Token.Holds expr.render printed ∧ ReflTransGen Unwraps kinds printed
          ∧ Expr.parse expr.render = .ok expr
          ∧ (∀ other others, Expr.parse other = .ok expr → Token.Holds other others →
            printed.count (.mark .leftParen) ≤ others.count (.mark .leftParen))
          ∧ ∀ other fewer, TransGen Unwraps printed fewer → Token.Holds other fewer →
            Expr.parse other ≠ .ok expr)
      ∧ ∀ other, Expr.parse other = .ok expr
        ↔ ∃ others, Token.Holds other others ∧ EqvGen Redundant kinds others := by
  obtain ⟨kinds, hkinds, haccepts⟩ := Expr.parse_eq_ok_iff.mp h
  have hsheds : ∀ {others}, Accepts others expr → ReflTransGen Unwraps others expr.bare.kinds :=
    fun hothers => ReflTransGen.mono (fun _ _ hstep => hstep.1) _ _ hothers.printed
  refine ⟨kinds, hkinds, fun hplain => ?_, fun other => ?_⟩
  · have hprinted := Expr.holds_render h hplain
    refine ⟨expr.bare.kinds, hprinted, hsheds haccepts,
      (Expr.parse_eq_ok_iff_of_holds hprinted expr).mpr haccepts.bare, ?_, ?_⟩
    · intro other others hparse hothers
      exact count_le_of_unwraps
        (hsheds ((Expr.parse_eq_ok_iff_of_holds hothers expr).mp hparse))
    · intro other fewer hfewer hother hparse
      -- Otherwise the printed form would be left of what has fewer parentheses than it.
      have hless := count_lt_of_unwraps hfewer
      have hmore := count_le_of_unwraps
        (hsheds ((Expr.parse_eq_ok_iff_of_holds hother expr).mp hparse))
      omega
  · rw [Expr.parse_eq_ok_iff]
    exact exists_congr fun others => and_congr_right fun _ => haccepts.iff_redundant

/-- Of six pairs of grouping parentheses the printed form keeps the one around a right operand; the
pair of the call is none of them. -/
theorem printed_parentheses_are_minimal_difference :
    let source := "((a - (b * (2.50)))) - ('q' + (str(c)))"
    let expr : Expr := .binary .subtract
      (.binary .subtract (.var "a") (.binary .multiply (.var "b")
        (.literal (.number (Number.Decimal.toFloat false ⟨250, -2⟩)))))
      (.binary .add (.literal (.text "q")) (.call .str [.var "c"]))
    Expr.parse source = .ok expr
      ∧ ∃ kinds printed, Token.Holds source kinds ∧ Token.Holds expr.render printed
        ∧ ReflTransGen Unwraps kinds printed
        ∧ kinds.count (.mark .leftParen) = 7 ∧ printed.count (.mark .leftParen) = 2
        ∧ Expr.parse expr.render = .ok expr := by
  intro source expr
  have hparse : Expr.parse source = .ok expr := eq_ok_of_toOption (by decide +kernel)
  obtain ⟨kinds, hkinds, hprinted, -⟩ := printed_parentheses_are_minimal hparse
  have hplain : ∀ value ∈ expr.literals, value.IsPlain := by decide +kernel
  obtain ⟨printed, hholds, hunwraps, hagain, -⟩ := hprinted hplain
  have hbefore : kinds.count (.mark .leftParen) = 7 := by
    obtain ⟨tokens, hscan, hsame⟩ := hkinds
    have hcount : (Token.scan source).toOption.map
        (fun tokens => (tokens.map Token.kind).count (.mark .leftParen)) = some 7 := by
      decide +kernel
    rw [hscan, Except.toOption, Option.map_some, hsame, List.count_append] at hcount
    exact Option.some.inj hcount
  have hafter : printed.count (.mark .leftParen) = 2 := by
    rw [hholds.unique (Expr.holds_render hparse hplain)]
    decide +kernel
  exact ⟨hparse, kinds, printed, hkinds, hholds, hunwraps, hbefore, hafter, hagain⟩

end Flowchart
