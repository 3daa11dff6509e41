import Flowchart.Proofs.Soundness

/-!
# What the grammar derives is read

Reading follows every derivation: a reader that starts where the tokens of a derivation do comes to
the derived expression and to the place after those tokens, unless the derivation passes one of the
two limits, and then reading stops with the complaint about the limits and with no other.

The rules of the grammar lean to the left, whereas a chain is read from the left. The induction is
therefore on the derivation, and at a level of operators it says how far the chain has come when the
tokens of the derivation are used up, not that it ends there.
-/

namespace Flowchart

open Token (Kind)
open Grammar

/-- One computation comes to what the other one is if the limits are kept, and complains of the
limits if not. -/
structure LeadsTo {α : Type} (result next : Except SyntaxError α) (kept : Prop) : Prop where
  eq_of_kept : kept → result = next
  tooDeep_of_not_kept : ¬ kept → ∃ position, result = .error ⟨position, .tooDeep⟩

namespace LeadsTo

variable {α β : Type} {kept more : Prop}

theorem refl (result : Except SyntaxError α) : LeadsTo result result True :=
  ⟨fun _ => rfl, fun h => absurd trivial h⟩

theorem congr {result next : Except SyntaxError α} (h : LeadsTo result next kept)
    (hiff : kept ↔ more) : LeadsTo result next more :=
  propext hiff ▸ h

theorem trans {first second third : Except SyntaxError α} (h : LeadsTo first second kept)
    (hmore : LeadsTo second third more) : LeadsTo first third (kept ∧ more) := by
  by_cases hkept : kept
  · rw [h.eq_of_kept hkept]
    exact hmore.congr (by simp [hkept])
  · exact ⟨fun hboth => absurd hboth.1 hkept, fun _ => h.tooDeep_of_not_kept hkept⟩

theorem bind {first : Except SyntaxError α} {a : α} {next : α → Except SyntaxError β}
    {result : Except SyntaxError β} (h : LeadsTo first (.ok a) kept)
    (hnext : LeadsTo (next a) result more) : LeadsTo (first >>= next) result (kept ∧ more) := by
  by_cases hkept : kept
  · rw [h.eq_of_kept hkept]
    exact hnext.congr (by simp [hkept])
  · obtain ⟨position, herror⟩ := h.tooDeep_of_not_kept hkept
    rw [herror]
    exact ⟨fun hboth => absurd hboth.1 hkept, fun _ => ⟨position, rfl⟩⟩

theorem tooDeep (position : Nat) (next : Except SyntaxError α) :
    LeadsTo (.error ⟨position, .tooDeep⟩) next False :=
  ⟨False.elim, fun _ => ⟨position, rfl⟩⟩

end LeadsTo

namespace Reader

/-- A height is allowed up to the limit. -/
theorem leadsTo_allowedHeight (height position : Nat) :
    LeadsTo (allowedHeight height position) (.ok height) (height ≤ maxHeight) := by
  unfold allowedHeight
  split
  · rename_i hle
    exact (LeadsTo.refl _).congr (by simp [hle])
  · rename_i hnot
    exact (LeadsTo.tooDeep position _).congr (by simp [hnot])

/-- The limits are kept by an expression that nests this deeply where there is this much room. -/
def Fits (room nesting : Nat) (expr : Expr) : Prop := nesting ≤ room ∧ expr.height ≤ maxHeight

def found (expr : Expr) (after : Cursor) : Except SyntaxError (Parsed × Cursor) :=
  .ok (⟨expr, expr.height⟩, after)

/-- No operator of this level or a tighter one goes on from here, and no parenthesis opens. -/
def Stops (level : Nat) (cursor : Cursor) : Prop :=
  cursor.current.kind ≠ .mark .leftParen
    ∧ ∀ tighter ≥ level, BinaryOp.ofKind? tighter cursor.current.kind = none

/-- Wherever these kinds stand and nothing goes on from them, they are read as this expression. -/
def Follows (room level : Nat) (kinds : List Kind) (expr : Expr) (nesting : Nat) : Prop :=
  ∀ ⦃cursor after : Cursor⦄, cursor.Spans after kinds → Stops level after →
    LeadsTo (levelReader (operand room) level cursor) (found expr after) (Fits room nesting expr)

/-- Wherever these kinds stand and nothing tighter goes on from them, the chain they are part of
comes to this expression. -/
def Chains (room level : Nat) (kinds : List Kind) (expr : Expr) (nesting : Nat) : Prop :=
  ∀ ⦃cursor after : Cursor⦄, cursor.Spans after kinds → Stops (level + 1) after →
    ∃ tokens ≥ after.rest.length,
      LeadsTo (levelReader (operand room) level cursor)
        (chainFrom level (levelReader (operand room) (level + 1)) tokens ⟨expr, expr.height⟩ after)
        (Fits room nesting expr)

theorem Stops.mono {level tighter : Nat} {cursor : Cursor} (h : Stops level cursor)
    (hle : level ≤ tighter) : Stops tighter cursor :=
  ⟨h.1, fun other hother => h.2 other (Nat.le_trans hle hother)⟩

/-- In front of an operator of a level, all tighter levels stop. -/
theorem stops_of_operator {level : Nat} {mark : Mark} {op : BinaryOp} {cursor : Cursor}
    (hop : (mark, op) ∈ operators level) (hmark : cursor.current.kind = .mark mark) :
    Stops (level + 1) cursor := by
  obtain ⟨hof, hlevel⟩ := mem_operators_iff.mp hop
  refine ⟨?_, fun tighter htighter => ?_⟩
  · rw [hmark]
    rintro hparen
    cases hparen
    cases hof
  · rw [hmark, BinaryOp.ofKind?, hof, Option.filter_some, if_neg]
    simp only [decide_eq_true_eq]
    omega

theorem stops_of_not_operator {level : Nat} {cursor : Cursor}
    (hparen : cursor.current.kind ≠ .mark .leftParen)
    (hmark : ∀ mark, cursor.current.kind = .mark mark → BinaryOp.ofMark? mark = none) :
    Stops level cursor := by
  refine ⟨hparen, fun tighter _ => ?_⟩
  cases hkind : cursor.current.kind with
  | mark mark => simp [BinaryOp.ofKind?, hmark mark hkind]
  | _ => rfl

theorem Chains.follows {room level : Nat} {kinds : List Kind} {expr : Expr} {nesting : Nat}
    (h : Chains room level kinds expr nesting) : Follows room level kinds expr nesting := by
  intro cursor after hspans hstops
  obtain ⟨tokens, -, hleads⟩ := h hspans (hstops.mono (Nat.le_succ level))
  have hend : chainFrom level (levelReader (operand room) (level + 1)) tokens ⟨expr, expr.height⟩ after
      = found expr after := by
    cases tokens with
    | zero => rfl
    | succ tokens => simp only [chainFrom, hstops.2 level (Nat.le_refl _), found]
  exact hend ▸ hleads

/-! ### One rule each -/

section Rules

variable {room level : Nat}

theorem Chains.of_follows {kinds : List Kind} {expr : Expr} {nesting : Nat} (hlevel : level < 7)
    (h : Follows room (level + 1) kinds expr nesting) : Chains room level kinds expr nesting := by
  intro cursor after hspans hstops
  refine ⟨after.rest.length, (Nat.le_refl _), ?_⟩
  rw [levelReader_of_lt hlevel]
  exact ((h hspans hstops).bind (LeadsTo.refl _)).congr (by simp)

theorem Follows.of_follows {kinds : List Kind} {expr : Expr} {nesting : Nat} (hlevel : 7 ≤ level)
    (h : Follows room (level + 1) kinds expr nesting) : Follows room level kinds expr nesting := by
  intro cursor after hspans hstops
  have htighter := h hspans (hstops.mono (Nat.le_succ level))
  rw [levelReader_of_le (Nat.le_succ_of_le hlevel)] at htighter
  rwa [levelReader_of_le hlevel]

/-- A chain goes on with one more operator and its right operand. -/
theorem Chains.join {mark : Mark} {op : BinaryOp} {leftKinds rightKinds : List Kind}
    {left right : Expr} {leftNesting rightNesting : Nat} (hop : (mark, op) ∈ operators level)
    (hleft : Chains room level leftKinds left leftNesting)
    (hright : Follows room (level + 1) rightKinds right rightNesting) :
    Chains room level (leftKinds ++ .mark mark :: rightKinds) (.binary op left right)
      (max leftNesting rightNesting) := by
  intro cursor after hspans hstops
  obtain ⟨middle, hfront, hback⟩ := hspans.split
  obtain ⟨tokens, htokens, hleads⟩ := hleft hfront (stops_of_operator hop hback.current)
  have hlength := hback.length_rest
  rw [List.length_cons] at hlength
  obtain ⟨fewer, rfl⟩ : ∃ fewer, tokens = fewer + 1 := ⟨tokens - 1, by omega⟩
  -- The chain has come to the operator, so one more of its rounds reads the right operand.
  refine ⟨fewer, by omega, ?_⟩
  have hfound := ofKind?_eq_some_iff.mpr ⟨mark, hback.current, hop⟩
  rw [chainFrom, hfound] at hleads
  refine (hleads.trans ((hright hback.advance hstops).bind
    ((leadsTo_allowedHeight _ _).bind (LeadsTo.refl _)))).congr ?_
  simp only [Fits, Expr.height, and_true]
  omega

theorem follows_of_operand {kinds : List Kind} {expr : Expr} {nesting : Nat} (hlevel : 7 ≤ level)
    (h : ∀ {cursor after : Cursor}, cursor.Spans after kinds → Stops level after →
      LeadsTo (operandWith (deeper room) cursor) (found expr after) (Fits room nesting expr)) :
    Follows room level kinds expr nesting := by
  intro cursor after hspans hstops
  rw [levelReader_of_le hlevel, operand_eq]
  exact h hspans hstops

theorem sign_deeper (less : Nat) (op : UnaryOp) (cursor : Cursor) :
    Reader.sign (deeper (less + 1)) op cursor = (do
      let (child, after) ← operand less cursor.advance
      let height ← allowedHeight (child.height + 1) cursor.current.position
      .ok (⟨.unary op child.expr, height⟩, after)) := rfl

/-- An operand with an operator before it is read one nesting deeper. -/
theorem Follows.sign {mark : Mark} {op : UnaryOp} {kinds : List Kind} {expr : Expr} {nesting : Nat}
    (hop : (mark, op) ∈ signs) (h : ∀ less, Follows less 7 kinds expr nesting) :
    Follows room 7 (.mark mark :: kinds) (.unary op expr) (nesting + 1) := by
  refine follows_of_operand (Nat.le_refl 7) fun {cursor after} hspans hstops => ?_
  have hsign : operandWith (deeper room) cursor = Reader.sign (deeper room) op cursor := by
    have hkind := hspans.current
    simp only [signs, List.mem_cons, Prod.mk.injEq, List.not_mem_nil, or_false] at hop
    rcases hop with ⟨rfl, rfl⟩ | ⟨rfl, rfl⟩ <;> simp only [operandWith, hkind]
  rw [hsign]
  cases room with
  | zero => exact (LeadsTo.tooDeep _ _).congr (by simp [Fits])
  | succ less =>
      have hoperand := h less hspans.advance hstops
      rw [levelReader_of_le (Nat.le_refl 7)] at hoperand
      have hiff : Fits less nesting expr ∧ expr.height + 1 ≤ maxHeight ∧ True
          ↔ Fits (less + 1) (nesting + 1) (.unary op expr) := by
        simp only [Fits, Expr.height, and_true]
        omega
      rw [sign_deeper]
      exact LeadsTo.congr (hoperand.bind ((leadsTo_allowedHeight _ _).bind (LeadsTo.refl _))) hiff

theorem follows_leaf {kind : Kind} {expr : Expr} (hheight : expr.height = 1)
    (h : ∀ {cursor : Cursor}, cursor.current.kind = kind →
      cursor.following.kind ≠ .mark .leftParen →
      operandWith (deeper room) cursor = .ok (⟨expr, 1⟩, cursor.advance)) :
    Follows room 8 [kind] expr 0 := by
  refine follows_of_operand (by omega) fun {cursor after} hspans hstops => ?_
  have hafter := hspans.advance.eq_of_nil
  rw [h hspans.current (by rw [hspans.following, hafter]; exact hstops.1), hafter, ← hheight]
  exact (LeadsTo.refl _).congr (by simp [Fits, hheight, maxHeight])

theorem leadsTo_expression {kinds : List Kind} {expr : Expr} {nesting : Nat}
    (hderives : Derives 1 kinds expr nesting) (h : Follows room 1 kinds expr nesting)
    {cursor after : Cursor} (hspans : cursor.Spans after kinds) (hstops : Stops 1 after) :
    LeadsTo (expression (operand room) cursor) (found expr after) (Fits room nesting expr) := by
  have hfinish : cursor.current.kind ≠ .finish := by
    obtain ⟨first, rest, rfl, hopens⟩ := hderives.opens
    rw [hspans.current]
    rintro rfl
    exact hopens
  rw [expression_eq_levelReader hfinish]
  exact h hspans hstops

theorem group_deeper (less : Nat) (cursor : Cursor) :
    Reader.group (deeper (less + 1)) cursor = (do
      let (inner, after) ← expression (operand less) cursor.advance
      let closed ← after.expect .rightParen
      .ok (inner, closed)) := rfl

/-- An expression between parentheses is read one nesting deeper. -/
theorem Follows.group {kinds : List Kind} {expr : Expr} {nesting : Nat}
    (hderives : Derives 1 kinds expr nesting) (h : ∀ less, Follows less 1 kinds expr nesting) :
    Follows room 8 (.mark .leftParen :: (kinds ++ [.mark .rightParen])) expr (nesting + 1) := by
  refine follows_of_operand (by omega) fun {cursor after} hspans hstops => ?_
  have hgroup : operandWith (deeper room) cursor = Reader.group (deeper room) cursor := by
    simp only [operandWith, primary, hspans.current]
  rw [hgroup]
  cases room with
  | zero => exact (LeadsTo.tooDeep _ _).congr (by simp [Fits])
  | succ less =>
      obtain ⟨middle, hinner, hclose⟩ := hspans.advance.split
      have hstopsInner : Stops 1 middle :=
        stops_of_not_operator (by simp [hclose.current]) (by simp [hclose.current, BinaryOp.ofMark?])
      have hexpression := leadsTo_expression hderives (h less) hinner hstopsInner
      have hexpect : LeadsTo (middle.expect .rightParen) (.ok after) True := by
        rw [hclose.expect]
        exact .refl _
      have hiff : Fits less nesting expr ∧ True ∧ True ↔ Fits (less + 1) (nesting + 1) expr := by
        simp [Fits]
      rw [group_deeper]
      exact LeadsTo.congr (hexpression.bind (hexpect.bind (LeadsTo.refl _))) hiff

/-! ### Calls -/

def argumentOf (phrase : Phrase) : Parsed := ⟨phrase.expr, phrase.expr.height⟩

def AllFollow (room : Nat) (phrases : List Phrase) : Prop :=
  ∀ phrase ∈ phrases, Derives 1 phrase.kinds phrase.expr phrase.nesting
    ∧ Follows room 1 phrase.kinds phrase.expr phrase.nesting

theorem stops_of_arguments {phrases : List Phrase} {cursor after : Cursor}
    (hspans : cursor.Spans after (phrases.flatMap fun phrase => .mark .comma :: phrase.kinds))
    (hclose : after.current.kind = .mark .rightParen) : Stops level cursor := by
  cases phrases with
  | nil =>
      rw [hspans.eq_of_nil]
      exact stops_of_not_operator (by simp [hclose]) (by simp [hclose, BinaryOp.ofMark?])
  | cons first rest =>
      have hcomma := hspans.current
      exact stops_of_not_operator (by simp [hcomma]) (by simp [hcomma, BinaryOp.ofMark?])

/-- Arguments are read one after the other, each after its comma. -/
theorem leadsTo_furtherArguments {phrases : List Phrase} (hphrases : AllFollow room phrases)
    {cursor after : Cursor} {tokens : Nat}
    (hspans : cursor.Spans after (phrases.flatMap fun phrase => .mark .comma :: phrase.kinds))
    (hclose : after.current.kind = .mark .rightParen) (htokens : cursor.rest.length ≤ tokens) :
    LeadsTo (furtherArguments (expression (operand room)) tokens cursor)
      (.ok (phrases.map argumentOf, after))
      (∀ phrase ∈ phrases, Fits room phrase.nesting phrase.expr) := by
  induction phrases generalizing cursor tokens with
  | nil =>
      obtain rfl := hspans.eq_of_nil
      have hend : furtherArguments (expression (operand room)) tokens cursor = .ok ([], cursor) := by
        cases tokens with
        | zero => rfl
        | succ tokens => simp [furtherArguments, hclose]
      rw [hend]
      exact (LeadsTo.refl _).congr (by simp)
  | cons first rest ih =>
      obtain ⟨⟨hderives, hfollows⟩, hrest⟩ := List.forall_mem_cons.mp hphrases
      rw [List.flatMap_cons, List.cons_append] at hspans
      have hcomma := hspans.current
      have hlength := hspans.length_rest
      obtain ⟨middle, hfirst, hothers⟩ := hspans.advance.split
      have hmiddle := hothers.length_rest
      rw [List.length_cons, List.length_append] at hlength
      obtain ⟨fewer, rfl⟩ : ∃ fewer, tokens = fewer + 1 := ⟨tokens - 1, by omega⟩
      have hexpression :=
        leadsTo_expression hderives hfollows hfirst (stops_of_arguments hothers hclose)
      have hmore := ih hrest hothers (by omega : middle.rest.length ≤ fewer)
      have hiff : Fits room first.nesting first.expr
            ∧ (∀ phrase ∈ rest, Fits room phrase.nesting phrase.expr) ∧ True
          ↔ ∀ phrase ∈ first :: rest, Fits room phrase.nesting phrase.expr := by
        simp
      rw [furtherArguments, if_pos hcomma]
      exact LeadsTo.congr (hexpression.bind (hmore.bind (LeadsTo.refl _))) hiff

theorem leadsTo_callArguments {phrases : List Phrase} (hphrases : AllFollow room phrases)
    {cursor after : Cursor} (hspans : cursor.Spans after (listed phrases ++ [.mark .rightParen])) :
    LeadsTo (callArguments (expression (operand room)) cursor)
      (.ok (phrases.map argumentOf, after))
      (∀ phrase ∈ phrases, Fits room phrase.nesting phrase.expr) := by
  cases phrases with
  | nil =>
      have hclose : cursor.Spans after [.mark .rightParen] := hspans
      rw [callArguments, if_pos hclose.current, hclose.advance.eq_of_nil]
      exact (LeadsTo.refl _).congr (by simp)
  | cons first rest =>
      obtain ⟨⟨hderives, hfollows⟩, hrest⟩ := List.forall_mem_cons.mp hphrases
      obtain ⟨finish, harguments, hclose⟩ := hspans.split
      rw [listed_cons] at harguments
      obtain ⟨middle, hfirst, hothers⟩ := harguments.split
      have hopen : cursor.current.kind ≠ .mark .rightParen := by
        obtain ⟨kind, kinds, hkinds, hopens⟩ := hderives.opens
        rw [hkinds] at hfirst
        rw [hfirst.current]
        rintro rfl
        simp [Opens] at hopens
      have hexpression := leadsTo_expression hderives hfollows hfirst
        (stops_of_arguments hothers hclose.current)
      have hmore := leadsTo_furtherArguments hrest hothers hclose.current (Nat.le_refl _)
      have hexpect : LeadsTo (finish.expect .rightParen) (.ok after) True := by
        rw [hclose.expect]
        exact .refl _
      have hiff : Fits room first.nesting first.expr
            ∧ (∀ phrase ∈ rest, Fits room phrase.nesting phrase.expr) ∧ True ∧ True
          ↔ ∀ phrase ∈ first :: rest, Fits room phrase.nesting phrase.expr := by
        simp
      rw [callArguments, if_neg hopen]
      exact LeadsTo.congr (hexpression.bind (hmore.bind (hexpect.bind (LeadsTo.refl _)))) hiff

theorem call_deeper (less : Nat) (function : Builtin) (cursor : Cursor) :
    Reader.call (deeper (less + 1)) function.name cursor = (do
      let (arguments, after) ←
        callArguments (expression (operand less)) cursor.advance.advance
      let deepest := (arguments.map Parsed.height).foldl max 0
      let height ← allowedHeight (deepest + 1) cursor.current.position
      .ok (⟨.call function (arguments.map Parsed.expr), height⟩, after)) := by
  cases function <;> rfl

/-- The arguments of a call are read one nesting deeper. -/
theorem Follows.call {function : Builtin} {arguments : List Phrase}
    (harguments : ∀ less, AllFollow less arguments) :
    Follows room 8
      (.name function.name :: .mark .leftParen :: (listed arguments ++ [.mark .rightParen]))
      (.call function (arguments.map Phrase.expr)) (deepest arguments + 1) := by
  refine follows_of_operand (by omega) fun {cursor after} hspans hstops => ?_
  have hcall : operandWith (deeper room) cursor = Reader.call (deeper room) function.name cursor := by
    simp [operandWith, primary, hspans.current, hspans.following, hspans.advance.current]
  rw [hcall]
  cases room with
  | zero =>
      have hnone : Reader.call (deeper 0) function.name cursor
          = .error ⟨cursor.advance.advance.current.position, .tooDeep⟩ := by
        cases function <;> rfl
      rw [hnone]
      exact (LeadsTo.tooDeep _ _).congr (by simp [Fits])
  | succ less =>
      have hread := leadsTo_callArguments (harguments less) hspans.advance.advance
      have hheight : ((arguments.map argumentOf).map Parsed.height).foldl max 0
          = Expr.heightAll (arguments.map Phrase.expr) := by
        rw [foldl_max_eq_heightAll, List.map_map]
        · rfl
        · simp [argumentOf]
      have hiff : (∀ phrase ∈ arguments, Fits less phrase.nesting phrase.expr)
            ∧ ((arguments.map argumentOf).map Parsed.height).foldl max 0 + 1 ≤ maxHeight ∧ True
          ↔ Fits (less + 1) (deepest arguments + 1) (.call function (arguments.map Phrase.expr)) := by
        rw [hheight]
        simp only [Fits, Expr.height, forall_and, and_true, Nat.succ_le_succ_iff, deepest_le_iff]
        have htall : Expr.heightAll (arguments.map Phrase.expr) + 1 ≤ maxHeight →
            ∀ phrase ∈ arguments, phrase.expr.height ≤ maxHeight := by
          intro hle phrase hmem
          exact heightAll_le_iff.mp (Nat.le_of_succ_le hle) phrase.expr (List.mem_map_of_mem hmem)
        constructor
        · rintro ⟨⟨hnesting, -⟩, hle⟩
          exact ⟨hnesting, hle⟩
        · rintro ⟨hnesting, hle⟩
          exact ⟨⟨hnesting, htall hle⟩, hle⟩
      rw [call_deeper]
      refine LeadsTo.congr (hread.bind ((leadsTo_allowedHeight _ _).bind ?_)) hiff
      rw [hheight]
      have hexprs : (arguments.map argumentOf).map Parsed.expr = arguments.map Phrase.expr := by
        rw [List.map_map]
        rfl
      rw [hexprs]
      exact LeadsTo.refl _

end Rules

/-! ### Every derivation -/

/-- What reading makes of a derivation: below the level of operands it says how far the chain has
come, so that the rule for an operator can go on from there. -/
def Leads (room level : Nat) (kinds : List Kind) (expr : Expr) (nesting : Nat) : Prop :=
  if level < 7 then Chains room level kinds expr nesting else Follows room level kinds expr nesting

theorem Leads.follows {room level : Nat} {kinds : List Kind} {expr : Expr} {nesting : Nat}
    (h : Leads room level kinds expr nesting) : Follows room level kinds expr nesting := by
  unfold Leads at h
  split at h
  · exact h.follows
  · exact h

/-- Whatever the grammar derives is read, as far as the limits allow. -/
theorem leads_of_derives {level : Nat} {kinds : List Kind} {expr : Expr} {nesting : Nat}
    (h : Derives level kinds expr nesting) (room : Nat) : Leads room level kinds expr nesting := by
  -- For every room at once: the rules that nest read what is inside with one nesting less.
  induction h generalizing room with
  | join hop _ _ ihleft ihright =>
      rename_i level mark op leftKinds rightKinds left right leftNesting rightNesting _ _
      have hlevel := level_lt_of_operator hop
      have hleft := ihleft room
      rw [Leads, if_pos hlevel] at hleft ⊢
      exact .join hop hleft (ihright room).follows
  | tighter _ ih =>
      rename_i level _ _ _ _
      by_cases hlevel : level < 7
      · rw [Leads, if_pos hlevel]
        exact .of_follows hlevel (ih room).follows
      · rw [Leads, if_neg hlevel]
        exact .of_follows (by omega) (ih room).follows
  | sign hop _ ih => exact .sign hop fun less => (ih less).follows
  | number x =>
      exact follows_leaf (by simp [Expr.height]) fun hkind _ => by
        simp [operandWith, primary, hkind]
  | text s =>
      exact follows_leaf (by simp [Expr.height]) fun hkind _ => by
        simp [operandWith, primary, hkind]
  | bool b =>
      exact follows_leaf (by simp [Expr.height]) fun hkind _ => by
        simp [operandWith, primary, hkind]
  | var name =>
      exact follows_leaf (by simp [Expr.height]) fun hkind hparen => by
        simp [operandWith, primary, hkind, hparen]
  | group h ih => exact .group h fun less => (ih less).follows
  | call function arguments h ih =>
      exact .call fun less phrase hmem => ⟨h phrase hmem, (ih phrase hmem less).follows⟩

/-- **Completeness.** Where an expression that stands in no other is derived, and nothing goes on
from it, it is read as derived if it keeps to the limits, and refused because of them if not. -/
theorem leadsTo_outermost {kinds : List Kind} {expr : Expr} {nesting : Nat}
    (h : Derives 1 kinds expr nesting) {cursor after : Cursor} (hspans : cursor.Spans after kinds)
    (hstops : Stops 1 after) :
    LeadsTo (outermost cursor) (found expr after) (Fits maxNesting nesting expr) :=
  leadsTo_expression h (leads_of_derives h maxNesting).follows hspans hstops

end Reader

end Flowchart
