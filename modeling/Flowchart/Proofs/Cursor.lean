import Flowchart.Token.Cursor
import Mathlib.Data.List.Forall2

/-!
# Places among tokens

What lies between two places, said by the kinds of the tokens alone. The parser reads past the last
token without complaint, so a list of tokens is only read as it stands if an end mark closes it: as
long as the end mark is not read, each step of the cursor takes one token off the front.
-/

namespace Flowchart

open Token (Kind)

section Results

variable {α β ε : Type}

/-- Going on comes to a result exactly if both steps do. -/
theorem bind_eq_ok_iff {first : Except ε α} {next : α → Except ε β} {b : β} :
    (first >>= next) = .ok b ↔ ∃ a, first = .ok a ∧ next a = .ok b := by
  cases first with
  | error e => simp [bind, Except.bind]
  | ok a => simp [bind, Except.bind]

variable {f : α → Except ε β}

/-- All of a list are mapped exactly if each of them is. -/
theorem mapM_eq_ok_iff {xs : List α} {ys : List β} :
    xs.mapM f = .ok ys ↔ List.Forall₂ (fun x y => f x = .ok y) xs ys := by
  induction xs generalizing ys with
  | nil =>
      rw [List.forall₂_nil_left_iff]
      exact ⟨fun h => by cases h; rfl, fun h => by rw [h]; rfl⟩
  | cons x xs ih =>
      rw [List.mapM_cons, bind_eq_ok_iff, List.forall₂_cons_left_iff]
      simp only [bind_eq_ok_iff, ih]
      constructor
      · rintro ⟨y, hy, ys, hys, h⟩
        cases h
        exact ⟨y, ys, hy, hys, rfl⟩
      · rintro ⟨y, ys, hy, hys, rfl⟩
        exact ⟨y, hy, ys, hys, rfl⟩

theorem exists_mapM_eq_ok_iff {xs : List α} :
    (∃ ys, xs.mapM f = .ok ys) ↔ ∀ x ∈ xs, ∃ y, f x = .ok y := by
  simp only [mapM_eq_ok_iff]
  induction xs with
  | nil => simp
  | cons x xs ih =>
      rw [List.forall_mem_cons, ← ih]
      simp only [List.forall₂_cons_left_iff]
      constructor
      · rintro ⟨_, y, ys, hy, hys, -⟩
        exact ⟨⟨y, hy⟩, ys, hys⟩
      · rintro ⟨⟨y, hy⟩, ys, hys⟩
        exact ⟨y :: ys, y, ys, hy, hys, rfl⟩

/-- Mapping a list fails with the error of the first that fails. -/
theorem mapM_eq_error_iff {xs : List α} {error : ε} :
    xs.mapM f = .error error ↔ ∃ front x back ys, xs = front ++ x :: back
      ∧ front.mapM f = .ok ys ∧ f x = .error error := by
  constructor
  · intro h
    induction xs with
    | nil => cases h
    | cons x xs ih =>
        cases hx : f x with
        | error other =>
            rw [List.mapM_cons, hx] at h
            cases h
            exact ⟨[], x, xs, [], rfl, rfl, hx⟩
        | ok y =>
            cases hxs : xs.mapM f with
            | ok ys =>
                rw [List.mapM_cons, hx, hxs] at h
                cases h
            | error other =>
                rw [List.mapM_cons, hx, hxs] at h
                cases h
                obtain ⟨front, bad, back, ys, rfl, hfront, hbad⟩ := ih hxs
                refine ⟨x :: front, bad, back, y :: ys, rfl, ?_, hbad⟩
                rw [List.mapM_cons, hx, hfront]
                rfl
  · rintro ⟨front, x, back, ys, rfl, hfront, hx⟩
    rw [List.mapM_append, hfront, List.mapM_cons, hx]
    rfl

end Results

namespace Cursor

/-- The tokens from one place to the other are of these kinds. -/
def Spans (before after : Cursor) (kinds : List Kind) : Prop :=
  ∃ taken, before = { after with rest := taken ++ after.rest } ∧ taken.map Token.kind = kinds

theorem Spans.refl (cursor : Cursor) : cursor.Spans cursor [] := ⟨[], rfl, rfl⟩

theorem Spans.trans {first second third : Cursor} {kinds more : List Kind}
    (h : first.Spans second kinds) (hmore : second.Spans third more) :
    first.Spans third (kinds ++ more) := by
  obtain ⟨taken, rfl, rfl⟩ := h
  obtain ⟨next, rfl, rfl⟩ := hmore
  exact ⟨taken ++ next, by simp, by simp⟩

/-- There is a place between any two tokens of a span. -/
theorem Spans.split {before after : Cursor} {kinds more : List Kind}
    (h : before.Spans after (kinds ++ more)) :
    ∃ middle, before.Spans middle kinds ∧ middle.Spans after more := by
  obtain ⟨taken, rfl, hkinds⟩ := h
  obtain ⟨front, back, rfl, rfl, rfl⟩ := List.map_eq_append_iff.mp hkinds
  exact ⟨{ after with rest := back ++ after.rest }, ⟨front, by simp, rfl⟩, back, rfl, rfl⟩

theorem Spans.current {before after : Cursor} {kind : Kind} {kinds : List Kind}
    (h : before.Spans after (kind :: kinds)) : before.current.kind = kind := by
  obtain ⟨taken, rfl, hkinds⟩ := h
  obtain ⟨token, rest, rfl, rfl, rfl⟩ := List.map_eq_cons_iff.mp hkinds
  rfl

theorem Spans.advance {before after : Cursor} {kind : Kind} {kinds : List Kind}
    (h : before.Spans after (kind :: kinds)) : before.advance.Spans after kinds := by
  obtain ⟨taken, rfl, hkinds⟩ := h
  obtain ⟨token, rest, rfl, rfl, rfl⟩ := List.map_eq_cons_iff.mp hkinds
  exact ⟨rest, rfl, rfl⟩

theorem Spans.following {before after : Cursor} {kind : Kind} {kinds : List Kind}
    (h : before.Spans after (kind :: kinds)) : before.following = before.advance.current := by
  obtain ⟨taken, rfl, hkinds⟩ := h
  obtain ⟨token, rest, rfl, rfl, rfl⟩ := List.map_eq_cons_iff.mp hkinds
  rfl

theorem Spans.eq_of_nil {before after : Cursor} (h : before.Spans after []) : before = after := by
  obtain ⟨taken, rfl, hkinds⟩ := h
  obtain rfl := List.map_eq_nil_iff.mp hkinds
  rfl

theorem Spans.length_rest {before after : Cursor} {kinds : List Kind}
    (h : before.Spans after kinds) :
    before.rest.length = kinds.length + after.rest.length := by
  obtain ⟨taken, rfl, rfl⟩ := h
  simp

/-- The tokens left are ended by their only end mark. -/
def IsEnded (cursor : Cursor) : Prop :=
  ∃ body, cursor.rest = body ++ [cursor.last] ∧ cursor.last.kind = .finish
    ∧ ∀ token ∈ body, token.kind ≠ .finish

structure Reads (before after : Cursor) (kinds : List Kind) : Prop where
  spans : before.Spans after kinds
  ended : after.IsEnded

theorem Reads.refl {cursor : Cursor} (h : cursor.IsEnded) : cursor.Reads cursor [] :=
  ⟨.refl cursor, h⟩

theorem Reads.trans {first second third : Cursor} {kinds more : List Kind}
    (h : first.Reads second kinds) (hmore : second.Reads third more) :
    first.Reads third (kinds ++ more) :=
  ⟨h.spans.trans hmore.spans, hmore.ended⟩

/-- Short of the end mark, a step of the cursor takes one token. -/
theorem IsEnded.reads_advance {cursor : Cursor} {kind : Kind} (h : cursor.IsEnded)
    (hkind : cursor.current.kind = kind) (hne : kind ≠ .finish) :
    cursor.Reads cursor.advance [kind] := by
  obtain ⟨rest, last, past⟩ := cursor
  obtain ⟨body, hrest, hlast, hbody⟩ := h
  dsimp only at hrest hlast
  subst hrest
  cases body with
  | nil =>
      subst hkind
      exact absurd hlast hne
  | cons token body =>
      exact ⟨⟨[token], rfl, by simpa [current] using hkind⟩, body, rfl, hlast,
        fun other hmem => hbody other (List.mem_cons_of_mem _ hmem)⟩

theorem IsEnded.reads_expect {cursor after : Cursor} {mark : Mark} (h : cursor.IsEnded)
    (hexpect : cursor.expect mark = .ok after) : cursor.Reads after [.mark mark] := by
  unfold expect at hexpect
  split at hexpect
  · rename_i hkind
    cases hexpect
    exact h.reads_advance hkind (by simp)
  · cases hexpect

theorem Spans.expect {cursor after : Cursor} {mark : Mark} (h : cursor.Spans after [.mark mark]) :
    cursor.expect mark = .ok after := by
  rw [Cursor.expect, if_pos h.current, h.advance.eq_of_nil]

/-- From the first place to the end mark stand all tokens before it. -/
theorem spans_ofTokens (tokens : List Token) (finish : Token) :
    (Cursor.ofTokens (tokens ++ [finish])).Spans ⟨[finish], finish, 0⟩ (tokens.map Token.kind) :=
  ⟨tokens, by simp [ofTokens], rfl⟩

theorem isEnded_ofTokens {tokens : List Token} {finish : Token} (hfinish : finish.kind = .finish)
    (htokens : ∀ token ∈ tokens, token.kind ≠ .finish) :
    (Cursor.ofTokens (tokens ++ [finish])).IsEnded :=
  ⟨tokens, by simp [ofTokens], by simpa [ofTokens] using hfinish, htokens⟩

end Cursor

end Flowchart
