import Flowchart.Proofs.Completeness
import Flowchart.Statement

/-!
# The parser accepts its grammar

Tokens that end in their only end mark make an expression exactly if they derive it within the
limits for nesting and for height. No derivation holds an equals sign, which is what tells the two
statements apart: a name before one starts an assignment, and nothing else does.
-/

namespace Flowchart

open Token (Kind)
open Grammar

namespace Cursor

def beforeFinish (finish : Token) : Cursor := ⟨[finish], finish, 0⟩

/-- Where an end mark stands after ended tokens, that is the end of them. -/
theorem IsEnded.rest_of_finish {cursor : Cursor} (h : cursor.IsEnded)
    (hfinish : cursor.current.kind = .finish) : cursor.rest = [cursor.last] := by
  obtain ⟨body, hrest, -, hbody⟩ := h
  cases body with
  | nil => simpa using hrest
  | cons first body =>
      have hcurrent : cursor.current = first := by simp [current, hrest]
      exact absurd (hcurrent ▸ hfinish) (hbody first (by simp))

theorem Reads.kinds_eq {before after : Cursor} {finish : Token} {kinds taken : List Kind}
    (h : before.Reads after taken) (hspans : before.Spans (beforeFinish finish) kinds)
    (hfinish : after.current.kind = .finish) : taken = kinds := by
  obtain ⟨body, hbefore, rfl⟩ := h.spans
  obtain ⟨whole, rfl, rfl⟩ := hspans
  have hlast : finish = after.last := congrArg Cursor.last hbefore
  have hrest : whole ++ [finish] = body ++ after.rest := congrArg Cursor.rest hbefore
  rw [h.ended.rest_of_finish hfinish, hlast] at hrest
  rw [List.append_cancel_right hrest]

end Cursor

open Cursor (beforeFinish)

variable {finish : Token} {kinds : List Kind}

namespace Reader

theorem stops_beforeFinish {level : Nat} (hfinish : finish.kind = .finish) :
    Stops level (beforeFinish finish) := by
  have hcurrent : (beforeFinish finish).current.kind = .finish := hfinish
  exact stops_of_not_operator (by simp [hcurrent]) (by simp [hcurrent])

/-- The tokens before the end mark are read to their end exactly as the grammar accepts them. -/
theorem outermost_reads_iff (hfinish : finish.kind = .finish) {cursor : Cursor}
    (hcursor : cursor.IsEnded) (hspans : cursor.Spans (beforeFinish finish) kinds) (expr : Expr) :
    (∃ parsed after, outermost cursor = .ok (parsed, after) ∧ after.current.kind = .finish
      ∧ parsed.expr = expr) ↔ Accepts kinds expr := by
  constructor
  · rintro ⟨parsed, after, h, hafter, rfl⟩
    have htook := outermost_sound hcursor h
    obtain ⟨taken, nesting, hreads, hnesting, hderives⟩ := htook.derives
    obtain rfl := hreads.kinds_eq hspans hafter
    exact ⟨⟨nesting, hnesting, hderives⟩, htook.height_le⟩
  · rintro ⟨⟨nesting, hnesting, hderives⟩, hheight⟩
    have hleads := leadsTo_outermost hderives hspans (stops_beforeFinish hfinish)
    exact ⟨_, _, hleads.eq_of_kept ⟨hnesting, hheight⟩, hfinish, rfl⟩

end Reader

theorem expectFinish_eq_ok_iff {cursor : Cursor} {u : Unit} :
    cursor.expectFinish = .ok u ↔ cursor.current.kind = .finish := by
  unfold Cursor.expectFinish
  split <;> simp [*]

variable {tokens : List Token}

/-- An expression is read from tokens exactly if the grammar has it within the limits. -/
theorem Expr.ofTokens_eq_ok_iff (hfinish : finish.kind = .finish)
    (htokens : ∀ token ∈ tokens, token.kind ≠ .finish) (expr : Expr) :
    Expr.ofTokens (tokens ++ [finish]) = .ok expr ↔ Accepts (tokens.map Token.kind) expr := by
  rw [← Reader.outermost_reads_iff hfinish (Cursor.isEnded_ofTokens hfinish htokens)
    (Cursor.spans_ofTokens tokens finish)]
  simp only [Expr.ofTokens, bind_eq_ok_iff, expectFinish_eq_ok_iff]
  simp

/-! ### The two statements -/

namespace Grammar

/-- No expression begins like an assignment. -/
theorem not_accepts_assign {target : String} {rest : List Kind} {expr : Expr} :
    ¬ Accepts (.name target :: .mark .assign :: rest) expr := by
  rintro ⟨⟨nesting, -, hderives⟩, -⟩
  exact hderives.not_delimits (.mark .assign) (by simp) (.inr (.inr rfl))

end Grammar

namespace Statement

theorem ofTokens_of_assign {target : String} {rest : List Kind}
    (hkinds : tokens.map Token.kind = .name target :: .mark .assign :: rest) :
    Statement.ofTokens (tokens ++ [finish]) = (do
      let (value, after) ←
        Reader.outermost (Cursor.ofTokens (tokens ++ [finish])).advance.advance
      after.expectFinish
      .ok (.assign target value.expr)) := by
  have hspans := Cursor.spans_ofTokens tokens finish
  rw [hkinds] at hspans
  have hcurrent := hspans.current
  have hfollowing := hspans.following ▸ hspans.advance.current
  simp only [Statement.ofTokens, hcurrent, hfollowing]

theorem ofTokens_of_not_assign (hfinish : finish.kind = .finish)
    (hkinds : ∀ target rest, tokens.map Token.kind ≠ .name target :: .mark .assign :: rest) :
    Statement.ofTokens (tokens ++ [finish])
      = (Expr.ofTokens (tokens ++ [finish])).map Statement.eval := by
  have hothers : ∀ target, (Cursor.ofTokens (tokens ++ [finish])).current.kind = .name target →
      (Cursor.ofTokens (tokens ++ [finish])).following.kind ≠ .mark .assign := by
    intro target hname hassign
    match tokens with
    | [] =>
        have hnone : finish.kind = .name target := hname
        rw [hfinish] at hnone
        cases hnone
    | [_] =>
        have hnone : finish.kind = .mark .assign := hassign
        rw [hfinish] at hnone
        cases hnone
    | first :: second :: rest =>
        have hfirst : first.kind = .name target := hname
        have hsecond : second.kind = .mark .assign := hassign
        exact hkinds target (rest.map Token.kind) (by simp [hfirst, hsecond])
  dsimp only [Statement.ofTokens]
  split
  · rename_i target hname hassign
    exact absurd hassign (hothers target hname)
  · unfold Expr.ofTokens
    cases Reader.outermost (Cursor.ofTokens (tokens ++ [finish])) with
    | error error => rfl
    | ok read =>
        cases hlast : read.2.expectFinish with
        | error error => simp [bind, Except.bind, Except.map, hlast]
        | ok u => simp [bind, Except.bind, Except.map, hlast]

/-- A statement is read from tokens exactly if the grammar has it within the limits. -/
theorem ofTokens_eq_ok_iff (hfinish : finish.kind = .finish)
    (htokens : ∀ token ∈ tokens, token.kind ≠ .finish) (statement : Statement) :
    Statement.ofTokens (tokens ++ [finish]) = .ok statement
      ↔ AcceptsStatement (tokens.map Token.kind) statement := by
  by_cases hkinds : ∃ target rest, tokens.map Token.kind = .name target :: .mark .assign :: rest
  · obtain ⟨target, rest, hkinds⟩ := hkinds
    have hspans := Cursor.spans_ofTokens tokens finish
    have hended := Cursor.isEnded_ofTokens hfinish htokens
    rw [hkinds] at hspans
    have hname := hended.reads_advance hspans.current (by simp)
    have hassign := hname.ended.reads_advance hspans.advance.current (by simp)
    have hvalue := Reader.outermost_reads_iff hfinish hassign.ended hspans.advance.advance
    rw [ofTokens_of_assign hkinds, hkinds]
    simp only [bind_eq_ok_iff, expectFinish_eq_ok_iff]
    cases statement with
    | eval expr => simp [AcceptsStatement, not_accepts_assign]
    | assign other value =>
        simp only [AcceptsStatement, List.cons.injEq, Kind.name.injEq, true_and]
        constructor
        · rintro ⟨⟨parsed, after⟩, hread, -, hfinal, hresult⟩
          simp only [Except.ok.injEq, Statement.assign.injEq] at hresult
          exact ⟨rest, ⟨hresult.1, rfl⟩, (hvalue value).mp ⟨parsed, after, hread, hfinal, hresult.2⟩⟩
        · rintro ⟨valueKinds, ⟨rfl, rfl⟩, haccepts⟩
          obtain ⟨parsed, after, hread, hfinal, rfl⟩ := (hvalue value).mpr haccepts
          exact ⟨⟨parsed, after⟩, hread, (), hfinal, rfl⟩
  · have hothers : ∀ target rest, tokens.map Token.kind ≠ .name target :: .mark .assign :: rest :=
      fun target rest h => hkinds ⟨target, rest, h⟩
    rw [ofTokens_of_not_assign hfinish hothers]
    cases statement with
    | eval expr =>
        rw [AcceptsStatement, ← Expr.ofTokens_eq_ok_iff hfinish htokens]
        cases Expr.ofTokens (tokens ++ [finish]) <;> simp [Except.map]
    | assign target value =>
        simp only [AcceptsStatement]
        constructor
        · cases Expr.ofTokens (tokens ++ [finish]) <;> simp [Except.map]
        · rintro ⟨valueKinds, h, -⟩
          exact absurd h (hothers target valueKinds)

end Statement

/-! ### Trees are unique -/

namespace Grammar

/-- Tokens of the given kinds; where they stand in the source makes no difference. -/
def tokensOf (kinds : List Kind) : List Token := kinds.map fun kind => ⟨kind, 0⟩

theorem kinds_tokensOf (kinds : List Kind) : (tokensOf kinds).map Token.kind = kinds := by
  rw [tokensOf, List.map_map]
  exact List.map_id' kinds

/-- No separator of statements stands inside an expression. -/
theorem Derives.not_endsStatement {level nesting : Nat} {expr : Expr}
    (h : Derives level kinds expr nesting) : ∀ kind ∈ kinds, kind.endsStatement = false := by
  intro kind hmem
  have hnot := h.not_delimits kind hmem
  simp only [Delimits, not_or] at hnot
  simp [Kind.endsStatement, hnot]

theorem AcceptsStatement.not_endsStatement {statement : Statement}
    (h : AcceptsStatement kinds statement) : ∀ kind ∈ kinds, kind.endsStatement = false := by
  cases statement with
  | eval expr =>
      obtain ⟨⟨nesting, -, hderives⟩, -⟩ := h
      exact hderives.not_endsStatement
  | assign target value =>
      obtain ⟨valueKinds, rfl, ⟨nesting, -, hderives⟩, -⟩ := h
      intro kind hmem
      simp only [List.mem_cons] at hmem
      rcases hmem with rfl | rfl | hmem
      · rfl
      · rfl
      · exact hderives.not_endsStatement kind hmem

theorem ne_finish_of_not_endsStatement {kind : Kind} (h : kind.endsStatement = false) :
    kind ≠ .finish := by
  rintro rfl
  cases h

/-- Tokens make one statement at most. -/
theorem acceptsStatement_unique {statement other : Statement}
    (h : AcceptsStatement kinds statement) (hother : AcceptsStatement kinds other) :
    statement = other := by
  have htokens : ∀ token ∈ tokensOf kinds, token.kind ≠ .finish := by
    intro token hmem
    obtain ⟨kind, hkind, rfl⟩ := List.mem_map.mp hmem
    exact ne_finish_of_not_endsStatement (h.not_endsStatement kind hkind)
  have hread := @Statement.ofTokens_eq_ok_iff ⟨.finish, 0⟩ _ rfl htokens
  rw [kinds_tokensOf] at hread
  have hboth := ((hread statement).mpr h).symm.trans ((hread other).mpr hother)
  exact Except.ok.inj hboth

end Grammar

/-- **Acceptance.** Of tokens in front of their only end mark, the parser makes an expression or a
statement exactly if the grammar does so within its two limits, and it makes the same one; no tokens
make two. -/
theorem ofTokens_eq_ok_iff_accepts (hfinish : finish.kind = .finish)
    (htokens : ∀ token ∈ tokens, token.kind ≠ .finish) :
    (∀ expr, Expr.ofTokens (tokens ++ [finish]) = .ok expr ↔ Accepts (tokens.map Token.kind) expr)
      ∧ (∀ statement, Statement.ofTokens (tokens ++ [finish]) = .ok statement
        ↔ AcceptsStatement (tokens.map Token.kind) statement)
      ∧ (∀ kinds expr other, Accepts kinds expr → Accepts kinds other → expr = other)
      ∧ (∀ kinds statement other, AcceptsStatement kinds statement →
        AcceptsStatement kinds other → statement = other) := by
  refine ⟨Expr.ofTokens_eq_ok_iff hfinish htokens, Statement.ofTokens_eq_ok_iff hfinish htokens,
    fun kinds expr other h hother => ?_, fun kinds statement other h hother => ?_⟩
  · have hsame := @acceptsStatement_unique kinds (.eval expr) (.eval other) h hother
    exact Statement.eval.inj hsame
  · exact acceptsStatement_unique h hother

/-- The grammar derives a sign that binds tighter than the operator after it, within an assignment,
because the parser reads it. -/
theorem acceptsStatement_sign_before_operator :
    AcceptsStatement
      [.name "x", .mark .assign, .mark .bang, .name "y", .mark .either, .name "str",
        .mark .leftParen, .name "z", .mark .comma, .name "x", .mark .rightParen]
      (.assign "x"
        (.binary .or (.unary .not (.var "y")) (.call .str [.var "z", .var "x"]))) :=
  ((@ofTokens_eq_ok_iff_accepts ⟨.finish, 11⟩
    (Grammar.tokensOf [.name "x", .mark .assign, .mark .bang, .name "y", .mark .either, .name "str",
      .mark .leftParen, .name "z", .mark .comma, .name "x", .mark .rightParen])
    rfl (by decide)).2.1 _).mp rfl

end Flowchart
