import Flowchart.Proofs.Descent
import Flowchart.Proofs.Lexemes
import Flowchart.Proofs.ReadingAhead
import Flowchart.Proofs.RoundTrip

/-!
# Where complaints point

A complaint about a source points to a place in it: no further than its end, and never into the midst
of a character. If the source has tokens, it points to one of them. The parser keeps the places of
signs and of names that are called on its stack, and otherwise complains of the token it looks at; past
the last one it looks at that one again. What it reads of a body is one statement with an end mark
where the separator stands, so a complaint about a statement points to a token of that statement or to
its separator.
-/

namespace Flowchart

open Token (Boundary Munches Blames placed)

/-! ### Complaints of the parser -/

namespace Descent

open Reader (allowedHeight)

def Frame.position? : Frame → Option Nat
  | sign _ position | argument _ position _ => some position
  | chain _ | join _ _ _ | group => none

def Focus.position? : Focus → Option Nat
  | word _ position | first _ position | between _ position _ => some position
  | done (.error error) => some error.position
  | start | seek _ | hold _ | done (.ok _) => none

/-- All that a state looks at or keeps a place of is among these tokens. -/
structure Within (tokens : List Token) (state : State) : Prop where
  rest_subset : state.cursor.rest ⊆ tokens
  last_mem : state.cursor.last ∈ tokens
  frames_subset : state.frames.filterMap Frame.position? ⊆ tokens.map Token.position
  focus_mem : ∀ position ∈ state.focus.position?, position ∈ tokens.map Token.position

namespace Within

variable {tokens : List Token} {state : State}

theorem current_mem (h : Within tokens state) : state.cursor.current ∈ tokens := by
  unfold Cursor.current
  cases hrest : state.cursor.rest with
  | nil => exact h.last_mem
  | cons first rest =>
      rw [List.headD_cons]
      exact h.rest_subset (hrest ▸ List.mem_cons_self)

/-- A complaint about a source with tokens points to one of them. -/
theorem position_mem (h : Within tokens state) :
    state.cursor.current.position ∈ tokens.map Token.position :=
  List.mem_map_of_mem h.current_mem

theorem take (h : Within tokens state) : Within tokens state.take := by
  obtain ⟨target, frames, focus, rest, last, past⟩ := state
  cases rest with
  | nil => exact { h with }
  | cons first rest => exact { h with rest_subset := (List.cons_subset.mp h.rest_subset).2 }

/-- With another stack and another focus, which keep no other places. -/
theorem turn (h : Within tokens state) {frames : List Frame} {focus : Focus}
    (hframes : frames.filterMap Frame.position? ⊆ tokens.map Token.position)
    (hfocus : ∀ position ∈ focus.position?, position ∈ tokens.map Token.position) :
    Within tokens { state with frames, focus } :=
  { h with frames_subset := hframes, focus_mem := hfocus }

theorem stop (h : Within tokens state) {error : SyntaxError}
    (herror : error.position ∈ tokens.map Token.position) : Within tokens (state.stop error) :=
  h.turn h.frames_subset (by simpa [Focus.position?] using herror)

theorem enter (h : Within tokens state) {frames : List Frame} {focus : Focus}
    (hframes : frames.filterMap Frame.position? ⊆ tokens.map Token.position)
    (hfocus : ∀ position ∈ focus.position?, position ∈ tokens.map Token.position) :
    Within tokens (state.enter frames focus) := by
  unfold State.enter
  split
  · exact h.turn hframes hfocus
  · exact h.stop h.position_mem

theorem build (h : Within tokens state) {frames : List Frame} {expr : Expr} {height position : Nat}
    (hframes : frames.filterMap Frame.position? ⊆ tokens.map Token.position)
    (hposition : position ∈ tokens.map Token.position) :
    Within tokens (state.build frames expr height position) := by
  unfold State.build allowedHeight
  split
  · exact h.turn hframes (by simp [Focus.position?])
  · rename_i error herror
    split at herror
    · cases herror
    · cases herror
      exact h.stop hposition

theorem call (h : Within tokens state) {function : Builtin} {position : Nat}
    {arguments : List Parsed} (hposition : position ∈ tokens.map Token.position) :
    Within tokens (state.call function position arguments) :=
  h.build h.frames_subset hposition

theorem seekOperand (h : Within tokens state) : Within tokens state.seekOperand := by
  have hplace := h.position_mem
  unfold State.seekOperand
  dsimp only
  split
  iterate 2
    exact h.take.enter (List.cons_subset.mpr ⟨hplace, h.frames_subset⟩) (by simp [Focus.position?])
  · exact h.take.enter h.frames_subset (by simp [Focus.position?])
  iterate 3 exact h.take.turn h.frames_subset (by simp [Focus.position?])
  · exact h.take.turn h.frames_subset (by simpa [Focus.position?] using hplace)
  · exact h.stop hplace

/-- Going on from an expression keeps no other places. -/
theorem goOn (h : Within tokens state) (parsed : Parsed) : Within tokens (state.goOn parsed) := by
  have hplace := h.position_mem
  have hframes := h.frames_subset
  unfold State.goOn
  dsimp only
  split
  · split
    · exact h.turn hframes (by simp [Focus.position?])
    · exact h.stop hplace
  · rename_i level frames heq
    rw [heq] at hframes
    split
    · exact h.turn hframes (by simp [Focus.position?])
    · exact h.take.turn hframes (by simp [Focus.position?])
  · rename_i heq
    rw [heq] at hframes
    exact h.build hframes hplace
  · rename_i heq
    rw [heq] at hframes
    exact h.build (List.cons_subset.mp hframes).2 (List.cons_subset.mp hframes).1
  · rename_i heq
    rw [heq] at hframes
    split
    · exact h.take.turn hframes (by simp [Focus.position?])
    · exact h.stop hplace
  · rename_i heq
    rw [heq] at hframes
    exact h.turn (List.cons_subset.mp hframes).2
      (by simpa [Focus.position?] using (List.cons_subset.mp hframes).1)

/-- No step keeps or complains of a place other than those of the tokens. -/
theorem step (h : Within tokens state) : Within tokens (step state) := by
  have hplace := h.position_mem
  have hkept := h.focus_mem
  unfold Descent.step
  cases hfocus : state.focus with
  | start =>
      dsimp only
      split
      · exact h.stop hplace
      · exact h.turn h.frames_subset (by simp [Focus.position?])
  | seek level =>
      dsimp only
      split
      · exact h.turn h.frames_subset (by simp [Focus.position?])
      · exact h.seekOperand
  | word name position =>
      rw [hfocus] at hkept
      dsimp only
      split
      · split
        · exact h.stop (hkept _ rfl)
        · exact h.take.enter h.frames_subset hkept
      · exact h.turn h.frames_subset (by simp [Focus.position?])
  | first function position =>
      rw [hfocus] at hkept
      dsimp only
      split
      · exact h.take.call (hkept _ rfl)
      · exact h.turn (List.cons_subset.mpr ⟨hkept _ rfl, h.frames_subset⟩)
          (by simp [Focus.position?])
  | between function position arguments =>
      rw [hfocus] at hkept
      dsimp only
      split
      · exact h.take.turn (List.cons_subset.mpr ⟨hkept _ rfl, h.frames_subset⟩)
          (by simp [Focus.position?])
      · split
        · exact h.take.call (hkept _ rfl)
        · exact h.stop hplace
  | hold parsed => exact h.goOn parsed
  | done result => exact h

theorem ofTokens (target : Option String) (hne : tokens ≠ []) :
    Within tokens ⟨target, [], .start, .ofTokens tokens⟩ where
  rest_subset := List.Subset.refl tokens
  last_mem := by
    rw [Cursor.ofTokens, List.getLast?_eq_some_getLast hne, Option.getD_some]
    exact List.getLast_mem hne
  frames_subset := List.nil_subset _
  focus_mem := by simp [Focus.position?]

theorem start (hne : tokens ≠ []) : Within tokens (start tokens) := by
  unfold Descent.start
  dsimp only
  split
  · exact (ofTokens _ hne).take.take
  · exact ofTokens none hne

/-- What the machine complains of in the end is one of the tokens. -/
theorem position_mem_of_done (h : Within tokens state) {other : State}
    (hreaches : Reaches state other) {error : SyntaxError}
    (hdone : other.focus = .done (.error error)) : error.position ∈ tokens.map Token.position := by
  obtain ⟨steps, rfl⟩ := hreaches
  have hother := Function.Iterate.rec (Within tokens) h (fun _ => step) steps
  exact hother.focus_mem _ (hdone ▸ rfl)

end Within

end Descent

section Parser

variable {tokens : List Token} {error : SyntaxError}

theorem Expr.position_mem_of_ofTokens (hne : tokens ≠ []) (h : ofTokens tokens = .error error) :
    error.position ∈ tokens.map Token.position := by
  obtain ⟨other, hreaches, hdone⟩ := Descent.reaches_done_expr tokens
  rw [h] at hdone
  exact (Descent.Within.ofTokens none hne).position_mem_of_done hreaches hdone

/-- A complaint about tokens points to one of them. -/
theorem Statement.position_mem_of_ofTokens (hne : tokens ≠ []) (h : ofTokens tokens = .error error) :
    error.position ∈ tokens.map Token.position := by
  obtain ⟨other, hreaches, hdone⟩ := Descent.reaches_done_ofTokens tokens
  rw [h] at hdone
  exact (Descent.Within.start hne).position_mem_of_done hreaches hdone

end Parser

/-! ### Where a statement stands -/

namespace Statement

/-- The tokens of a statement among others, with the separator that ends it behind them: at least
one, none of which ends a statement, and before them another separator if there is anything. -/
structure Stands (tokens before body : List Token) (separator : Token) (after : List Token) :
    Prop where
  tokens_eq : tokens = before ++ body ++ separator :: after
  opens : ∀ last ∈ before.getLast?, last.kind.endsStatement
  body_ne_nil : body ≠ []
  inner : ∀ token ∈ body, token.kind.endsStatement = false
  closes : separator.kind.endsStatement

variable {tokens before body after : List Token} {separator : Token}

theorem Stands.subset (h : Stands tokens before body separator after) :
    body ++ [separator] ⊆ tokens := by
  rw [h.tokens_eq, List.append_assoc, List.append_cons body separator after]
  exact List.subset_append_of_subset_right _ (List.subset_append_left _ _)

/-- Tokens in front that end with a separator do not matter to a statement. -/
theorem Stands.behind (h : Stands tokens before body separator after) {mark : Token}
    (hmark : mark.kind.endsStatement) (front : List Token) :
    Stands (front ++ mark :: tokens) (front ++ mark :: before) body separator after where
  tokens_eq := by rw [h.tokens_eq]; simp
  opens last hlast := by
    rw [List.getLast?_append, List.getLast?_cons, Option.some_or] at hlast
    cases hbefore : before.getLast? with
    | none =>
        rw [hbefore] at hlast
        cases hlast
        exact hmark
    | some other =>
        rw [hbefore] at hlast
        cases hlast
        exact h.opens other hbefore
  body_ne_nil := h.body_ne_nil
  inner := h.inner
  closes := h.closes

/-- Each piece of tokens is a statement that stands among them, with an end mark in the place of its
separator, and the pieces before it are those of the tokens before it. -/
theorem stands_of_splitFrom {begun chunk : List Token} {front back : List (List Token)}
    (hbegun : ∀ token ∈ begun, token.kind.endsStatement = false)
    (h : splitFrom begun tokens = front ++ chunk :: back) :
    ∃ before body separator after, Stands (begun ++ tokens) before body separator after
      ∧ splitFrom [] before = front ∧ chunk = body ++ [⟨.finish, separator.position⟩] := by
  induction tokens generalizing begun front with
  | nil => simp [splitFrom] at h
  | cons token rest ih =>
      rw [splitFrom] at h
      by_cases hends : token.kind.endsStatement
      · rw [if_pos hends] at h
        by_cases hempty : begun = []
        · subst hempty
          obtain ⟨before, body, separator, after, hstands, hfront, hchunk⟩ :=
            @ih [] front (by simp) (by simpa using h)
          refine ⟨token :: before, body, separator, after, hstands.behind hends [], ?_, hchunk⟩
          rw [splitFrom, if_pos hends]
          exact hfront
        · rw [if_neg (by simpa using hempty)] at h
          cases front with
          | nil =>
              obtain ⟨rfl, -⟩ := List.cons.inj h
              exact ⟨[], begun, token, rest, ⟨rfl, by simp, hempty, hbegun, hends⟩, rfl, rfl⟩
          | cons first front =>
              obtain ⟨rfl, hrest⟩ := List.cons.inj h
              obtain ⟨before, body, separator, after, hstands, rfl, hchunk⟩ :=
                @ih [] front (by simp) hrest
              refine ⟨begun ++ token :: before, body, separator, after,
                hstands.behind hends begun, ?_, hchunk⟩
              exact splitFrom_append hbegun hends (by simpa using hempty)
      · rw [if_neg hends] at h
        rw [Bool.not_eq_true] at hends
        have hnext : ∀ other ∈ begun ++ [token], other.kind.endsStatement = false := by
          simpa [or_imp, forall_and] using ⟨hbegun, hends⟩
        simpa using ih hnext h

/-- The first statement that cannot be read stands here, and the complaint points to one of its
tokens or to its separator. -/
structure PointedAt (tokens : List Token) (error : SyntaxError) (before body : List Token)
    (separator : Token) (after : List Token) : Prop where
  stands : Stands tokens before body separator after
  readable : ∃ statements, (splitFrom [] before).mapM ofTokens = .ok statements
  unreadable : ofTokens (body ++ [⟨.finish, separator.position⟩]) = .error error
  position_mem : error.position ∈ (body ++ [separator]).map Token.position
  not_before : ∀ first ∈ body.head?, first.position ≤ error.position
  not_behind : error.position ≤ separator.position

/-- The complaint about a body points to the first statement that cannot be read. -/
theorem exists_pointedAt {front back : List (List Token)} {chunk : List Token}
    {error : SyntaxError} {statements : List Statement}
    (hsorted : (tokens.map Token.position).Pairwise (· < ·))
    (hsplit : splitFrom [] tokens = front ++ chunk :: back)
    (hreadable : front.mapM ofTokens = .ok statements) (hchunk : ofTokens chunk = .error error) :
    ∃ before body separator after, PointedAt tokens error before body separator after := by
  obtain ⟨before, body, separator, after, hstands, rfl, rfl⟩ :=
    stands_of_splitFrom (by simp) hsplit
  rw [List.nil_append] at hstands
  have hmem : error.position ∈ (body ++ [separator]).map Token.position := by
    simpa using position_mem_of_ofTokens (List.concat_ne_nil _ _) hchunk
  have hrange : ((body ++ [separator]).map Token.position).Pairwise (· < ·) := by
    have htokens : tokens = before ++ (body ++ [separator] ++ after) := by
      rw [hstands.tokens_eq]
      simp
    rw [htokens, List.map_append, @List.map_append _ _ _ (body ++ [separator])] at hsorted
    exact (List.pairwise_append.mp (List.pairwise_append.mp hsorted).2.1).1
  refine ⟨before, body, separator, after, hstands, ⟨_, hreadable⟩, hchunk, hmem, ?_, ?_⟩
  · intro first hfirst
    obtain ⟨rest, rfl⟩ := List.head?_eq_some_iff.mp hfirst
    rw [List.cons_append, List.map_cons] at hmem hrange
    rcases List.mem_cons.mp hmem with hsame | hlater
    · exact hsame.ge
    · exact ((List.pairwise_cons.mp hrange).1 _ hlater).le
  · rw [List.map_append, List.map_singleton] at hmem hrange
    rcases List.mem_append.mp hmem with hinner | hsame
    · exact ((List.pairwise_append.mp hrange).2.2 _ hinner _ (List.mem_singleton_self _)).le
    · exact (List.mem_singleton.mp hsame).le

end Statement

/-! ### Borders of characters -/

namespace Token

/-- The tokens of the characters behind others stand one after the other at borders of characters. -/
theorem Scans.places {source : String} {front cs : List Char} {position : Nat} {tokens : List Token}
    (h : Scans position cs tokens) (hsource : source.toList = front ++ cs)
    (hposition : position = width front) :
    (tokens.map Token.position).Pairwise (· < ·)
      ∧ ∀ token ∈ tokens, position ≤ token.position ∧ Boundary source token.position := by
  induction h generalizing front with
  | finish position =>
      subst hposition
      simpa using boundary_of_append hsource
  | @blank position c cs tokens hblank h ih =>
      obtain ⟨hsorted, hplaces⟩ := @ih (front ++ [c]) (by simp [hsource])
        (by rw [width_append, hposition])
      exact ⟨hsorted, fun token hmem =>
        ⟨Nat.le_trans (Nat.le_add_right _ _) (hplaces token hmem).1, (hplaces token hmem).2⟩⟩
  | @lexeme position c cs lex tokens hblank hlex h ih =>
      have hspelling := lexeme_spelling (hlex.lexeme_eq position)
      have hpositive := width_pos (lexeme_spelling_ne_nil (hlex.lexeme_eq position))
      obtain ⟨hsorted, hplaces⟩ := @ih (front ++ lex.spelling)
        (by rw [hsource, List.append_assoc, hspelling]) (by rw [width_append, hposition])
      refine ⟨List.pairwise_cons.mpr ⟨fun other hother => ?_, hsorted⟩,
        List.forall_mem_cons.mpr ⟨⟨Nat.le_refl _, ?_⟩, fun token hmem => ?_⟩⟩
      · obtain ⟨token, htoken, rfl⟩ := List.mem_map.mp hother
        have hle := (hplaces token htoken).1
        dsimp only
        omega
      · subst hposition
        exact boundary_of_append hsource
      · exact ⟨Nat.le_trans (Nat.le_add_right _ _) (hplaces token hmem).1, (hplaces token hmem).2⟩

theorem Blames.boundary {source : String} {front cs : List Char} {c : Char} {error : SyntaxError}
    (h : Blames (width front) c cs error) (hsource : source.toList = front ++ c :: cs) :
    Boundary source error.position := by
  cases h with
  | @escape content spelling letter more hquote hquotes hletter hcs =>
      rw [← width_append]
      refine @boundary_of_append source _ ('\\' :: letter :: more) ?_
      rw [hsource, hcs]
      simp
  | start => exact boundary_of_append hsource

/-- A complaint about characters points to a border between them. -/
theorem boundary_of_scan {source : String} {error : SyntaxError} (h : scan source = .error error) :
    Boundary source error.position := by
  obtain ⟨pieces, rest, hmunches, htold⟩ := munches_scanFrom 0 source.toList
  rw [← scan, h] at htold
  obtain ⟨gap, c, tail, rfl, -, -, -, hblames⟩ := htold
  rw [Nat.zero_add] at hblames
  refine hblames.boundary ?_
  rw [hmunches.chars_eq, List.append_assoc]

end Token

/-! ### Complaints about a source -/

/-- Reading a source in one way or another, or executing it, comes to this complaint. -/
inductive Complains (source : String) (environment : Environment) (error : SyntaxError) : Prop
  | tokens (h : Token.scan source = .error error)
  | split (h : Statement.split source = .error error)
  | expression (h : Expr.parse source = .error error)
  | statements (h : Statement.parseAll source = .error error)
  | execution (h : (Body.exec environment source).result = .error (.unreadable error))

section Source

variable {source : String} {environment : Environment} {error : SyntaxError} {tokens : List Token}

theorem Statement.exists_pointedAt_of_parseAll (hscan : Token.scan source = .ok tokens)
    (h : parseAll source = .error error) :
    ∃ before body separator after, PointedAt tokens error before body separator after := by
  have hplaces := (Token.scans_of_scanFrom hscan).places (List.nil_append _).symm rfl
  obtain ⟨readable, hbreaks⟩ := breaksOff_of_parseAll h
  cases hbreaks with
  | tokens hfail =>
      rw [hscan] at hfail
      cases hfail
  | statement hsame hsplit hreadable hchunk =>
      rw [hscan] at hsame
      cases hsame
      exact exists_pointedAt hplaces.1 hsplit hreadable hchunk

theorem Statement.position_mem_of_parseAll (hscan : Token.scan source = .ok tokens)
    (h : parseAll source = .error error) : error.position ∈ tokens.map Token.position := by
  obtain ⟨before, body, separator, after, hpointed⟩ := exists_pointedAt_of_parseAll hscan h
  exact List.map_subset _ hpointed.stands.subset hpointed.position_mem

theorem Expr.position_mem_of_parse (hscan : Token.scan source = .ok tokens)
    (h : parse source = .error error) : error.position ∈ tokens.map Token.position := by
  rw [parse, hscan] at h
  obtain ⟨body, rfl, -⟩ := (Token.scans_of_scanFrom hscan).ended
  exact position_mem_of_ofTokens (List.concat_ne_nil _ _) h

namespace Complains

theorem of_not_scan {other : SyntaxError} (hscan : Token.scan source = .error other)
    (h : Complains source environment error) : other = error := by
  have hsplit : Statement.split source = .error other := by
    rw [Statement.split, hscan]
    rfl
  have hparse : Statement.parseAll source = .error other := by
    rw [Statement.parseAll, hsplit]
    rfl
  cases h with
  | tokens h => exact Except.error.inj (hscan.symm.trans h)
  | split h => exact Except.error.inj (hsplit.symm.trans h)
  | expression h =>
      rw [Expr.parse, hscan] at h
      exact Except.error.inj h
  | statements h => exact Except.error.inj (hparse.symm.trans h)
  | execution h => exact Except.error.inj (hparse.symm.trans (Body.parseAll_of_unreadable h))

theorem position_mem (h : Complains source environment error)
    (hscan : Token.scan source = .ok tokens) : error.position ∈ tokens.map Token.position := by
  cases h with
  | tokens h =>
      rw [hscan] at h
      cases h
  | split h =>
      rw [Statement.split, hscan] at h
      cases h
  | expression h => exact Expr.position_mem_of_parse hscan h
  | statements h => exact Statement.position_mem_of_parseAll hscan h
  | execution h => exact Statement.position_mem_of_parseAll hscan (Body.parseAll_of_unreadable h)

/-- Every complaint points to a border between characters. -/
theorem boundary (h : Complains source environment error) : Boundary source error.position := by
  cases hscan : Token.scan source with
  | error other =>
      obtain rfl := of_not_scan hscan h
      exact Token.boundary_of_scan hscan
  | ok tokens =>
      obtain ⟨token, htoken, hposition⟩ := List.mem_map.mp (h.position_mem hscan)
      have hplaces := (Token.scans_of_scanFrom hscan).places (List.nil_append _).symm rfl
      exact hposition ▸ (hplaces.2 token htoken).2

end Complains

/-- **Complaints point into the source.** Whatever a source is read as, and whatever environment it
is executed in, a complaint about it points to a border of characters no further than its end. If the
source has tokens it points to one of them, the end mark included. If the source was read as
statements, that is a token of the first one that cannot be read or the separator that ends it. -/
theorem complaints_point_into_the_source (h : Complains source environment error) :
    error.position ≤ source.utf8ByteSize ∧ Boundary source error.position
      ∧ ∀ tokens, Token.scan source = .ok tokens →
        error.position ∈ tokens.map Token.position
          ∧ (Statement.parseAll source = .error error
              ∨ (Body.exec environment source).result = .error (.unreadable error) →
            ∃ before body separator after,
              Statement.PointedAt tokens error before body separator after) := by
  refine ⟨h.boundary.le_utf8ByteSize, h.boundary, fun tokens hscan =>
    ⟨h.position_mem hscan, fun hstatements => ?_⟩⟩
  have hparse : Statement.parseAll source = .error error :=
    hstatements.elim id Body.parseAll_of_unreadable
  exact Statement.exists_pointedAt_of_parseAll hscan hparse

/-- The second of three statements lacks an operand and a parenthesis: the complaint points to the
semicolon behind it, past characters of two bytes. -/
theorem complaints_point_into_the_source_open_group :
    let source := "é = 'ß'; x = (é +; y"
    let error : SyntaxError := ⟨20, .expected .expression .finish⟩
    let tokens : List Token := [⟨.name "é", 0⟩, ⟨.mark .assign, 3⟩, ⟨.text "ß", 5⟩,
      ⟨.mark .semicolon, 9⟩, ⟨.name "x", 11⟩, ⟨.mark .assign, 13⟩, ⟨.mark .leftParen, 15⟩,
      ⟨.name "é", 16⟩, ⟨.mark .plus, 19⟩, ⟨.mark .semicolon, 20⟩, ⟨.name "y", 22⟩, ⟨.finish, 23⟩]
    Complains source .empty error ∧ Token.scan source = .ok tokens ∧ Boundary source 20
      ∧ 20 ∈ tokens.map Token.position
      ∧ ∃ before body separator after,
        Statement.PointedAt tokens error before body separator after := by
  intro source error tokens
  have hexec : (Body.exec .empty source).result = .error (.unreadable error) := by decide +kernel
  have hscan : Token.scan source = .ok tokens := by decide +kernel
  have hcomplains : Complains source .empty error := .execution hexec
  obtain ⟨-, hboundary, htokens⟩ := complaints_point_into_the_source hcomplains
  obtain ⟨hmem, hpointed⟩ := htokens tokens hscan
  exact ⟨hcomplains, hscan, hboundary, hmem, hpointed (.inr hexec)⟩

end Source

end Flowchart
