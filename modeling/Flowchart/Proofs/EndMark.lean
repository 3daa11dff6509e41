import Flowchart.Proofs.Acceptance
import Flowchart.Proofs.Descent

/-!
# Statements need their end mark

Past the last token that token is read again, and so nothing stands in for an end mark that is
missing. Tokens without one are no statement. Where they are one as soon as an end mark is put
behind them, they are read to the last of them, and it is the last one that is complained of: it ends
an operand, so no operator, no comma and no opening parenthesis goes on from it when it is read again.
-/

namespace Flowchart

open Token (Kind)
open Grammar

variable {last : Token} {tokens : List Token}

namespace Cursor

/-- No end mark is left, and none is read after what is left. -/
structure IsEndless (cursor : Cursor) : Prop where
  rest_ne : ∀ token ∈ cursor.rest, token.kind ≠ .finish
  last_ne : cursor.last.kind ≠ .finish

theorem IsEndless.current_ne {cursor : Cursor} (h : cursor.IsEndless) :
    cursor.current.kind ≠ .finish := by
  obtain ⟨rest, last, past⟩ := cursor
  cases rest with
  | nil => exact h.last_ne
  | cons first rest => exact h.rest_ne first (by simp)

theorem IsEndless.advance {cursor : Cursor} (h : cursor.IsEndless) : cursor.advance.IsEndless := by
  obtain ⟨rest, last, past⟩ := cursor
  cases rest with
  | nil => exact ⟨h.rest_ne, h.last_ne⟩
  | cons first rest =>
      exact ⟨fun token hmem => h.rest_ne token (List.mem_cons_of_mem _ hmem), h.last_ne⟩

theorem isEndless_ofTokens (hne : tokens ≠ []) (htokens : ∀ token ∈ tokens, token.kind ≠ .finish) :
    (ofTokens tokens).IsEndless where
  rest_ne := htokens
  last_ne := by
    have hlast : (ofTokens tokens).last = tokens.getLast hne := by
      rw [ofTokens, List.getLast?_eq_some_getLast hne, Option.getD_some]
    rw [hlast]
    exact htokens _ (List.getLast_mem hne)

def behind (last : Token) : Cursor := ⟨[], last, 0⟩

theorem spans_behind (hlast : tokens.getLast? = some last) :
    (ofTokens tokens).Spans (behind last) (tokens.map Token.kind) :=
  ⟨tokens, by simp [ofTokens, behind, hlast], rfl⟩

end Cursor

open Cursor (behind)

/-! ### Never a statement -/

namespace Descent

/-- Where no end mark is left, none is ever reached. -/
theorem Reaches.isEndless {state other : State} (hreaches : Reaches state other)
    (h : state.cursor.IsEndless) : other.cursor.IsEndless := by
  obtain ⟨steps, rfl⟩ := hreaches
  refine Function.Iterate.rec (fun next : State => next.cursor.IsEndless) h (fun next hnext => ?_)
    steps
  rcases cursor_step next with hcursor | hcursor
  · rwa [hcursor]
  · rw [hcursor]
    exact hnext.advance

theorem isEndless_start (hne : tokens ≠ []) (htokens : ∀ token ∈ tokens, token.kind ≠ .finish) :
    (start tokens).cursor.IsEndless := by
  have hendless := Cursor.isEndless_ofTokens hne htokens
  unfold start
  dsimp only
  split
  · exact hendless.advance.advance
  · exact hendless

theorem reaches_hold {target : Option String} {parsed : Parsed} {cursor after : Cursor}
    (hkept : Kept ⟨target, [], .start, cursor⟩)
    (hread : Reader.outermost cursor = .ok (parsed, after)) :
    Reaches ⟨target, [], .start, cursor⟩ ⟨target, [], .hold parsed, after⟩ := by
  have hperforms := performs_expression (performs_operand maxNesting) (Nat.zero_add _) hkept
  rwa [← Reader.outermost, hread] at hperforms

end Descent

/-- Without an end mark no statement is complete. -/
theorem Statement.ofTokens_ne_ok (htokens : ∀ token ∈ tokens, token.kind ≠ .finish)
    (statement : Statement) : Statement.ofTokens tokens ≠ .ok statement := by
  intro h
  by_cases hne : tokens = []
  · subst hne
    cases h
  · obtain ⟨target, cursor, hstart, hresult⟩ := Descent.ofTokens_eq_outermost tokens
    have hendless := Descent.isEndless_start hne htokens
    have hkept := Descent.kept_start tokens
    rw [hstart] at hendless hkept
    rw [hresult] at h
    obtain ⟨⟨parsed, after⟩, hread, h⟩ := bind_eq_ok_iff.mp h
    obtain ⟨_, hfinish, -⟩ := bind_eq_ok_iff.mp h
    have hafter : after.IsEndless := (Descent.reaches_hold hkept hread).isEndless hendless
    exact hafter.current_ne (expectFinish_eq_ok_iff.mp hfinish)

/-! ### Where the end mark is all that is missing -/

/-- What is derived ends with a token that may end an operand. -/
theorem Grammar.Derives.ends {level nesting : Nat} {kinds : List Kind} {expr : Expr}
    (h : Derives level kinds expr nesting) :
    ∃ front kind, kinds = front ++ [kind] ∧ Descent.Ends kind := by
  induction h with
  | @join _ mark _ leftKinds _ _ _ _ _ _ _ _ _ ihright =>
      obtain ⟨front, kind, rfl, hends⟩ := ihright
      exact ⟨leftKinds ++ .mark mark :: front, kind, by simp, hends⟩
  | tighter _ ih => exact ih
  | @sign mark _ _ _ _ _ _ ih =>
      obtain ⟨front, kind, rfl, hends⟩ := ih
      exact ⟨.mark mark :: front, kind, rfl, hends⟩
  | @group kinds => exact ⟨.mark .leftParen :: kinds, .mark .rightParen, rfl, rfl⟩
  | call function arguments =>
      exact ⟨.name function.name :: .mark .leftParen :: listed arguments, .mark .rightParen, rfl,
        rfl⟩
  | _ => exact ⟨[], _, rfl, trivial⟩

theorem Grammar.AcceptsStatement.ne_nil {kinds : List Kind} {statement : Statement}
    (h : AcceptsStatement kinds statement) : kinds ≠ [] := by
  rintro rfl
  cases statement with
  | eval expr =>
      obtain ⟨⟨nesting, -, hderives⟩, -⟩ := h
      obtain ⟨first, rest, hkinds, -⟩ := hderives.opens
      cases hkinds
  | assign target value =>
      obtain ⟨kinds, hkinds, -⟩ := h
      cases hkinds

namespace Reader

theorem stops_behind {level : Nat} (hends : Descent.Ends last.kind) :
    Stops level (behind last) := by
  have hcurrent : (behind last).current.kind = last.kind := rfl
  refine stops_of_not_operator ?_ ?_ <;> rw [hcurrent]
  · intro hparen
    rw [hparen] at hends
    cases hends
  · intro mark hmark
    rw [hmark] at hends
    obtain rfl : mark = .rightParen := hends
    rfl

/-- An expression with nothing behind it is read to its last token. -/
theorem outermost_behind {kinds : List Kind} {expr : Expr} {cursor : Cursor}
    (haccepts : Accepts kinds expr) (hspans : cursor.Spans (behind last) kinds)
    (hlast : kinds.getLast? = some last.kind) : outermost cursor = found expr (behind last) := by
  obtain ⟨⟨nesting, hnesting, hderives⟩, hheight⟩ := haccepts
  have hends : Descent.Ends last.kind := by
    obtain ⟨front, kind, rfl, hends⟩ := hderives.ends
    rw [List.getLast?_concat] at hlast
    cases hlast
    exact hends
  have hleads := leadsTo_outermost hderives hspans (stops_behind hends)
  exact hleads.eq_of_kept ⟨hnesting, hheight⟩

end Reader

namespace Descent

theorem following_mem (hne : tokens ≠ []) : (Cursor.ofTokens tokens).following ∈ tokens := by
  match tokens with
  | [] => exact absurd rfl hne
  | [only] => exact List.mem_cons_self
  | first :: second :: rest => simp [Cursor.following, Cursor.ofTokens]

/-- The expression of a statement starts where it does with an end mark behind the statement. -/
theorem start_of_accepts {statement : Statement} (hlast : tokens.getLast? = some last)
    (haccepts : AcceptsStatement (tokens.map Token.kind) statement) :
    ∃ target expr cursor kinds, start tokens = ⟨target, [], .start, cursor⟩
      ∧ cursor.Spans (behind last) kinds ∧ kinds.getLast? = some last.kind ∧ Accepts kinds expr := by
  have hspans := Cursor.spans_behind hlast
  have hkind : (tokens.map Token.kind).getLast? = some last.kind := by
    rw [List.getLast?_map, hlast, Option.map_some]
  cases statement with
  | eval expr =>
      refine ⟨none, expr, .ofTokens tokens, _, start_of_not_assign ?_, hspans, hkind, haccepts⟩
      intro target _ hassign
      obtain ⟨⟨nesting, -, hderives⟩, -⟩ := haccepts
      have hne : tokens ≠ [] := by
        rintro rfl
        cases hlast
      have hmem := List.mem_map_of_mem (f := Token.kind) (following_mem hne)
      exact hderives.not_delimits _ hmem (.inr (.inr hassign))
  | assign target value =>
      obtain ⟨kinds, hkinds, haccepts⟩ := haccepts
      rw [hkinds] at hspans hkind
      have hassign := hspans.following ▸ hspans.advance.current
      refine ⟨some target, value, _, kinds, start_of_assign hspans.current hassign,
        hspans.advance.advance, ?_, haccepts⟩
      obtain ⟨⟨nesting, -, hderives⟩, -⟩ := haccepts
      obtain ⟨first, rest, rfl, -⟩ := hderives.opens
      rwa [List.getLast?_cons_cons, List.getLast?_cons_cons] at hkind

end Descent

/-- Without an end mark the last token is read in its place, and complained of. -/
theorem Statement.ofTokens_behind {statement : Statement} (hlast : tokens.getLast? = some last)
    (hfinish : last.kind ≠ .finish)
    (haccepts : AcceptsStatement (tokens.map Token.kind) statement) :
    Statement.ofTokens tokens = .error ⟨last.position, .expected .finish last.kind⟩ := by
  obtain ⟨target, expr, cursor, kinds, hstart, hspans, hkind, haccepts⟩ :=
    Descent.start_of_accepts hlast haccepts
  obtain ⟨other, place, hsame, hresult⟩ := Descent.ofTokens_eq_outermost tokens
  rw [hstart] at hsame
  obtain ⟨rfl, rfl⟩ : target = other ∧ cursor = place := by
    simpa using hsame
  have hend : (behind last).expectFinish = .error ⟨last.position, .expected .finish last.kind⟩ :=
    if_neg hfinish
  rw [hresult, Reader.outermost_behind haccepts hspans hkind]
  simp [Reader.found, bind, Except.bind, hend]

/-- **No statement without an end mark.** Tokens without an end mark make no statement. If they make
one with an end mark behind them, then without it the last of them is found where the end is wanted. -/
theorem no_statement_without_end_mark (htokens : ∀ token ∈ tokens, token.kind ≠ .finish) :
    (∀ statement, Statement.ofTokens tokens ≠ .ok statement)
      ∧ ∀ finish statement, finish.kind = .finish →
        Statement.ofTokens (tokens ++ [finish]) = .ok statement →
        ∃ last ∈ tokens.getLast?,
          Statement.ofTokens tokens = .error ⟨last.position, .expected .finish last.kind⟩ := by
  refine ⟨Statement.ofTokens_ne_ok htokens, fun finish statement hfinish h => ?_⟩
  have haccepts := (Statement.ofTokens_eq_ok_iff hfinish htokens statement).mp h
  have hne : tokens ≠ [] := fun hnil => haccepts.ne_nil (List.map_eq_nil_iff.mpr hnil)
  have hlast := List.getLast?_eq_some_getLast hne
  exact ⟨_, hlast, Statement.ofTokens_behind hlast (htokens _ (List.getLast_mem hne)) haccepts⟩

/-- The parenthesis that closes is found again where the end is wanted. -/
theorem no_statement_without_end_mark_group :
    let tokens : List Token := [⟨.name "x", 0⟩, ⟨.mark .assign, 2⟩, ⟨.mark .leftParen, 4⟩,
      ⟨.name "y", 5⟩, ⟨.mark .rightParen, 6⟩]
    let finish : Token := ⟨.finish, 7⟩
    (∀ token ∈ tokens, token.kind ≠ .finish) ∧ finish.kind = .finish
      ∧ Statement.ofTokens (tokens ++ [finish]) = .ok (.assign "x" (.var "y"))
      ∧ (∀ statement, Statement.ofTokens tokens ≠ .ok statement)
      ∧ ∃ last ∈ tokens.getLast?,
          Statement.ofTokens tokens = .error ⟨last.position, .expected .finish last.kind⟩ := by
  intro tokens finish
  have htokens : ∀ token ∈ tokens, token.kind ≠ .finish := by decide
  have hread : Statement.ofTokens (tokens ++ [finish]) = .ok (.assign "x" (.var "y")) := rfl
  obtain ⟨hnever, hlast⟩ := no_statement_without_end_mark htokens
  exact ⟨htokens, rfl, hread, hnever, hlast finish _ rfl hread⟩

/-- A missing end mark is not treated as present: a variable alone is a statement with it and none
without it. -/
theorem ofTokens_variable_alone :
    Statement.ofTokens [⟨.name "x", 0⟩, ⟨.finish, 1⟩] = .ok (.eval (.var "x"))
      ∧ Statement.ofTokens [⟨.name "x", 0⟩] = .error ⟨0, .expected .finish (.name "x")⟩ :=
  ⟨rfl, rfl⟩

end Flowchart
