import Mathlib.Logic.Function.Iterate
import Flowchart.Proofs.Soundness

/-!
# Reading in steps

The readers call one another. Here the same is done by a machine that keeps what is still to be done
on a stack: a step looks at one token and takes no more than that one. No step is counted, so that
the machine may go on for ever where a reader ends for want of tokens.

It does not, and comes to what the readers come to. Past the last token that token is read again and
again: if it ends an operand, no operator and no comma is left to go on with, and only parentheses
close; if it does not, nothing goes on but signs and parentheses that open. Either way nothing
but a nesting is left or entered, so the limit on nestings is one on reading past the end as well.
-/

namespace Flowchart.Descent

open Token (Kind)
open Reader (allowedHeight deeper operand levelReader)

/-! ### The machine -/

/-- What an expression that is being read is for. -/
inductive Frame where
  /-- The operand of a chain of this level, or what the chain has come to. -/
  | chain (level : Nat)
  /-- The right operand of an operator of this level. -/
  | join (level : Nat) (op : BinaryOp) (left : Parsed)
  | sign (op : UnaryOp) (position : Nat)
  | group
  /-- An argument of a call, after these ones. -/
  | argument (function : Builtin) (position : Nat) (before : List Parsed)

inductive Focus where
  /-- An expression, which may be anything but the end mark. -/
  | start
  /-- An expression of a level. -/
  | seek (level : Nat)
  /-- What tells whether the name before it is a variable or is called. -/
  | word (name : String) (position : Nat)
  /-- The first argument of a call, or the end of the call. -/
  | first (function : Builtin) (position : Nat)
  /-- A further argument of a call, or the end of the call. -/
  | between (function : Builtin) (position : Nat) (arguments : List Parsed)
  /-- What goes on from this expression. -/
  | hold (parsed : Parsed)
  | done (result : Except SyntaxError Statement)

/-- The stack holds what is innermost first. A statement that assigns has a target. -/
structure State where
  target : Option String
  frames : List Frame
  focus : Focus
  cursor : Cursor

def Frame.nests : Frame → Bool
  | sign _ _ | group | argument _ _ _ => true
  | chain _ | join _ _ _ => false

def nesting (frames : List Frame) : Nat := frames.countP Frame.nests

def statementOf (target : Option String) (expr : Expr) : Statement :=
  match target with
  | none => .eval expr
  | some name => .assign name expr

namespace State

def take (state : State) : State := { state with cursor := state.cursor.advance }

@[simp]
theorem frames_take (state : State) : state.take.frames = state.frames := rfl

@[simp]
theorem cursor_take (state : State) : state.take.cursor = state.cursor.advance := rfl

def stop (state : State) (error : SyntaxError) : State :=
  { state with focus := .done (.error error) }

def enter (state : State) (frames : List Frame) (focus : Focus) : State :=
  if nesting state.frames < maxNesting then { state with frames, focus }
  else state.stop ⟨state.cursor.current.position, .tooDeep⟩

def build (state : State) (frames : List Frame) (expr : Expr) (height position : Nat) : State :=
  match allowedHeight height position with
  | .ok height => { state with frames, focus := .hold ⟨expr, height⟩ }
  | .error error => state.stop error

def call (state : State) (function : Builtin) (position : Nat) (arguments : List Parsed) : State :=
  let deepest := (arguments.map Parsed.height).foldl max 0
  state.build state.frames (.call function (arguments.map Parsed.expr)) (deepest + 1) position

def seekOperand (state : State) : State :=
  let token := state.cursor.current
  match token.kind with
  | .mark .minus => state.take.enter (.sign .negate token.position :: state.frames) (.seek 7)
  | .mark .bang => state.take.enter (.sign .not token.position :: state.frames) (.seek 7)
  | .mark .leftParen => state.take.enter (.group :: state.frames) .start
  | .number x => { state.take with focus := .hold ⟨.literal (.number x), 1⟩ }
  | .text s => { state.take with focus := .hold ⟨.literal (.text s), 1⟩ }
  | .bool b => { state.take with focus := .hold ⟨.literal (.bool b), 1⟩ }
  | .name name => { state.take with focus := .word name token.position }
  | _ => state.stop (state.cursor.unexpected .expression)

def goOn (state : State) (parsed : Parsed) : State :=
  let token := state.cursor.current
  match state.frames with
  | [] =>
    if token.kind = .finish then
      { state with focus := .done (.ok (statementOf state.target parsed.expr)) }
    else state.stop (state.cursor.unexpected .finish)
  | .chain level :: frames =>
    match BinaryOp.ofKind? level token.kind with
    | none => { state with frames, focus := .hold parsed }
    | some op =>
      { state.take with frames := .join level op parsed :: frames, focus := .seek (level + 1) }
  | .join level op left :: frames =>
    state.build (.chain level :: frames) (.binary op left.expr parsed.expr)
      (max left.height parsed.height + 1) token.position
  | .sign op position :: frames =>
    state.build frames (.unary op parsed.expr) (parsed.height + 1) position
  | .group :: frames =>
    if token.kind = .mark .rightParen then { state.take with frames, focus := .hold parsed }
    else state.stop (state.cursor.unexpected (.mark .rightParen))
  | .argument function position before :: frames =>
    { state with frames, focus := .between function position (before ++ [parsed]) }

end State

def step (state : State) : State :=
  let token := state.cursor.current
  match state.focus with
  | .start =>
    if token.kind = .finish then state.stop (state.cursor.unexpected .expression)
    else { state with focus := .seek 1 }
  | .seek level =>
    if level < 7 then
      { state with frames := .chain level :: state.frames, focus := .seek (level + 1) }
    else state.seekOperand
  | .word name position =>
    if token.kind = .mark .leftParen then
      match Builtin.ofName? name with
      | none => state.stop ⟨position, .unknownFunction name⟩
      | some function => state.take.enter state.frames (.first function position)
    else { state with focus := .hold ⟨.var name, 1⟩ }
  | .first function position =>
    if token.kind = .mark .rightParen then state.take.call function position []
    else { state with frames := .argument function position [] :: state.frames, focus := .start }
  | .between function position arguments =>
    if token.kind = .mark .comma then
      { state.take with
        frames := .argument function position arguments :: state.frames, focus := .start }
    else if token.kind = .mark .rightParen then state.take.call function position arguments
    else state.stop (state.cursor.unexpected (.mark .rightParen))
  | .hold parsed => state.goOn parsed
  | .done _ => state

def start (tokens : List Token) : State :=
  let cursor := Cursor.ofTokens tokens
  match cursor.current.kind, cursor.following.kind with
  | .name target, .mark .assign => ⟨some target, [], .start, cursor.advance.advance⟩
  | _, _ => ⟨none, [], .start, cursor⟩

/-! ### Past the last token -/

def Ends : Kind → Prop
  | .number _ | .text _ | .name _ | .bool _ => True
  | .mark mark => mark = .rightParen
  | .finish => False

/-- The last token is the one that is read again, and nothing is read again before that. -/
structure Tidy (cursor : Cursor) : Prop where
  last_eq : ∀ token, cursor.rest.getLast? = some token → cursor.last = token
  past_eq : cursor.rest ≠ [] → cursor.past = 0

namespace Tidy

variable {cursor : Cursor}

theorem ofTokens (tokens : List Token) : Tidy (.ofTokens tokens) where
  last_eq token h := by
    dsimp only [Cursor.ofTokens] at h ⊢
    rw [h]
    rfl
  past_eq _ := rfl

theorem advance (h : Tidy cursor) : Tidy cursor.advance := by
  obtain ⟨rest, last, past⟩ := cursor
  cases rest with
  | nil => exact ⟨by simp [Cursor.advance], by simp [Cursor.advance]⟩
  | cons first rest =>
      refine ⟨fun token hlast => h.last_eq token ?_, fun _ => h.past_eq (List.cons_ne_nil _ _)⟩
      dsimp only [Cursor.advance] at hlast ⊢
      rw [List.getLast?_cons, hlast]
      rfl

theorem last_of_rest_nil (h : Tidy cursor) (hrest : cursor.advance.rest = []) :
    cursor.advance.last = cursor.current := by
  obtain ⟨rest, last, past⟩ := cursor
  cases rest with
  | nil => rfl
  | cons first rest =>
      obtain rfl : rest = [] := hrest
      exact h.last_eq first rfl

theorem past_advance (h : Tidy cursor) (hrest : cursor.rest ≠ []) : cursor.advance.past = 0 := by
  obtain ⟨rest, last, past⟩ := cursor
  cases rest with
  | nil => exact absurd rfl hrest
  | cons first rest => exact h.past_eq hrest

end Tidy

theorem current_of_rest_nil {cursor : Cursor} (h : cursor.rest = []) :
    cursor.current = cursor.last := by
  rw [Cursor.current, h]
  rfl

/-- One token further, at most one more was read after the last. -/
theorem past_advance_le (cursor : Cursor) : cursor.advance.past ≤ cursor.past + 1 := by
  obtain ⟨rest, last, past⟩ := cursor
  cases rest with
  | nil => exact Nat.le_refl _
  | cons first rest => exact Nat.le_succ _

theorem length_advance_le (cursor : Cursor) : cursor.advance.rest.length ≤ cursor.rest.length := by
  obtain ⟨rest, last, past⟩ := cursor
  cases rest with
  | nil => exact Nat.le_refl _
  | cons first rest => exact Nat.le_succ _

structure Wants (depth : Nat) (cursor : Cursor) : Prop where
  tidy : Tidy cursor
  depth_le : depth ≤ maxNesting
  past_le : cursor.past ≤ depth
  not_ends : cursor.rest = [] → ¬ Ends cursor.last.kind

structure Has (depth : Nat) (cursor : Cursor) : Prop where
  tidy : Tidy cursor
  past_le : cursor.past + depth ≤ maxNesting
  ends : cursor.rest = [] → Ends cursor.last.kind

section

variable {depth : Nat} {cursor : Cursor}

/-- The end of an operand is not read past the last token. -/
theorem Wants.take (h : Wants depth cursor) (hends : Ends cursor.current.kind) :
    Has depth cursor.advance where
  tidy := h.tidy.advance
  past_le := by
    have hrest : cursor.rest ≠ [] := fun hnil =>
      h.not_ends hnil (current_of_rest_nil hnil ▸ hends)
    rw [h.tidy.past_advance hrest, Nat.zero_add]
    exact h.depth_le
  ends hnil := by rwa [h.tidy.last_of_rest_nil hnil]

/-- Each sign and each parenthesis that opens may be one that is read again. -/
theorem Wants.enter (h : Wants depth cursor) (hends : ¬ Ends cursor.current.kind)
    (hdepth : depth < maxNesting) : Wants (depth + 1) cursor.advance where
  tidy := h.tidy.advance
  depth_le := hdepth
  past_le := Nat.le_trans (past_advance_le cursor) (Nat.succ_le_succ h.past_le)
  not_ends hnil := by rwa [h.tidy.last_of_rest_nil hnil]

/-- What does not end an operand is not read past the last token. -/
theorem Has.rest_ne_nil (h : Has depth cursor) (hends : ¬ Ends cursor.current.kind) :
    cursor.rest ≠ [] := fun hnil =>
  hends (current_of_rest_nil hnil ▸ h.ends hnil)

theorem Has.take (h : Has depth cursor) (hends : ¬ Ends cursor.current.kind) {deeper : Nat}
    (hdeeper : deeper ≤ maxNesting) : Wants deeper cursor.advance where
  tidy := h.tidy.advance
  depth_le := hdeeper
  past_le := by
    rw [h.tidy.past_advance (h.rest_ne_nil hends)]
    exact Nat.zero_le _
  not_ends hnil := by rwa [h.tidy.last_of_rest_nil hnil]

/-- Each parenthesis that closes may be one that is read again. -/
theorem Has.leave (h : Has (depth + 1) cursor) (hends : Ends cursor.current.kind) :
    Has depth cursor.advance where
  tidy := h.tidy.advance
  past_le := by
    have hpast := past_advance_le cursor
    have hle := h.past_le
    omega
  ends hnil := by rwa [h.tidy.last_of_rest_nil hnil]

theorem Has.mono (h : Has (depth + 1) cursor) : Has depth cursor where
  tidy := h.tidy
  past_le := Nat.le_trans (Nat.add_le_add_left (Nat.le_succ depth) _) h.past_le
  ends := h.ends

theorem Wants.past_advance_le (h : Wants depth cursor) :
    cursor.advance.past ≤ maxNesting + 1 := by
  have hadvance := Descent.past_advance_le cursor
  have hpast := h.past_le
  have hdepth := h.depth_le
  omega

theorem Wants.past_le_succ (h : Wants depth cursor) : cursor.past ≤ maxNesting + 1 :=
  Nat.le_succ_of_le (Nat.le_trans h.past_le h.depth_le)

theorem Has.past_le_succ (h : Has depth cursor) : cursor.past ≤ maxNesting + 1 :=
  Nat.le_succ_of_le (Nat.le_trans (Nat.le_add_right _ _) h.past_le)

theorem Has.depth_le (h : Has depth cursor) : depth ≤ maxNesting :=
  Nat.le_trans (Nat.le_add_left _ _) h.past_le

end

def Kept (state : State) : Prop :=
  match state.focus with
  | .start | .seek _ => Wants (nesting state.frames) state.cursor
  | .first _ _ => Wants (nesting state.frames + 1) state.cursor
  | .word _ _ | .hold _ => Has (nesting state.frames) state.cursor
  | .between _ _ _ => Has (nesting state.frames + 1) state.cursor
  | .done _ => state.cursor.past ≤ maxNesting + 1

@[simp]
theorem nesting_sign (op : UnaryOp) (position : Nat) (frames : List Frame) :
    nesting (.sign op position :: frames) = nesting frames + 1 := List.countP_cons_of_pos rfl

@[simp]
theorem nesting_group (frames : List Frame) : nesting (.group :: frames) = nesting frames + 1 :=
  List.countP_cons_of_pos rfl

@[simp]
theorem nesting_argument (function : Builtin) (position : Nat) (before : List Parsed)
    (frames : List Frame) :
    nesting (.argument function position before :: frames) = nesting frames + 1 :=
  List.countP_cons_of_pos rfl

theorem not_ends_of_operator {level : Nat} {kind : Kind} {op : BinaryOp}
    (h : BinaryOp.ofKind? level kind = some op) : ¬ Ends kind := by
  obtain ⟨mark, rfl, hop⟩ := Grammar.ofKind?_eq_some_iff.mp h
  rintro rfl
  cases (Grammar.mem_operators_iff.mp hop).1

theorem kept_enter {state : State} {frames : List Frame} {focus : Focus}
    (hpast : state.cursor.past ≤ maxNesting + 1)
    (h : nesting state.frames < maxNesting → Kept { state with frames, focus }) :
    Kept (state.enter frames focus) := by
  unfold State.enter
  split
  · exact h ‹_›
  · exact hpast

theorem kept_build {state : State} {frames : List Frame} {expr : Expr} {height position : Nat}
    (h : Has (nesting frames) state.cursor) : Kept (state.build frames expr height position) := by
  unfold State.build
  split
  · exact h
  · exact h.past_le_succ

/-- Looking for an operand keeps what every step keeps. -/
theorem kept_seekOperand {state : State} (h : Wants (nesting state.frames) state.cursor) :
    Kept state.seekOperand := by
  have hpast : state.take.cursor.past ≤ maxNesting + 1 := h.past_advance_le
  unfold State.seekOperand
  dsimp only
  split
  · rename_i hkind
    refine kept_enter hpast fun hroom => ?_
    simpa [Kept] using h.enter (by simp [hkind, Ends]) hroom
  · rename_i hkind
    refine kept_enter hpast fun hroom => ?_
    simpa [Kept] using h.enter (by simp [hkind, Ends]) hroom
  · rename_i hkind
    refine kept_enter hpast fun hroom => ?_
    simpa [Kept] using h.enter (by simp [hkind, Ends]) hroom
  · rename_i hkind
    exact h.take (hkind ▸ trivial)
  · rename_i hkind
    exact h.take (hkind ▸ trivial)
  · rename_i hkind
    exact h.take (hkind ▸ trivial)
  · rename_i hkind
    exact h.take (hkind ▸ trivial)
  · exact h.past_le_succ

/-- Going on from an expression keeps what every step keeps. -/
theorem kept_goOn {state : State} {parsed : Parsed}
    (h : Has (nesting state.frames) state.cursor) : Kept (state.goOn parsed) := by
  have hpast := h.past_le_succ
  obtain ⟨target, frames, focus, cursor⟩ := state
  unfold State.goOn
  dsimp only at h hpast ⊢
  split
  · split <;> exact hpast
  · split
    · exact h
    · rename_i op hop
      exact h.take (not_ends_of_operator hop) h.depth_le
  · exact kept_build h
  · rw [nesting_sign] at h
    exact kept_build h.mono
  · split
    · rename_i hkind
      rw [nesting_group] at h
      exact h.leave (hkind ▸ rfl)
    · exact hpast
  · rw [nesting_argument] at h
    exact h

theorem kept_call {state : State} {function : Builtin} {position : Nat} {arguments : List Parsed}
    (h : Has (nesting state.frames) state.cursor) :
    Kept (state.call function position arguments) :=
  kept_build h

/-- No step reads further past the last token than its nestings account for. -/
theorem kept_step {state : State} (h : Kept state) : Kept (step state) := by
  obtain ⟨target, frames, focus, cursor⟩ := state
  cases focus with
  | start =>
      have hwants : Wants (nesting frames) cursor := h
      unfold step
      dsimp only
      split
      · exact hwants.past_le_succ
      · exact hwants
  | seek level =>
      unfold step
      dsimp only
      split
      · exact h
      · exact kept_seekOperand h
  | word name position =>
      have hhas : Has (nesting frames) cursor := h
      unfold step
      dsimp only
      split
      · rename_i hkind
        have hends : ¬ Ends cursor.current.kind := by simp [hkind, Ends]
        split
        · exact hhas.past_le_succ
        · exact kept_enter (hhas.take hends hhas.depth_le).past_le_succ fun hroom =>
            hhas.take hends hroom
      · exact hhas
  | first function position =>
      have hwants : Wants (nesting frames + 1) cursor := h
      unfold step
      dsimp only
      split
      · rename_i hkind
        exact kept_call (hwants.take (hkind ▸ rfl)).mono
      · simpa [Kept] using hwants
  | between function position arguments =>
      have hhas : Has (nesting frames + 1) cursor := h
      unfold step
      dsimp only
      split
      · rename_i hkind
        simpa [Kept] using hhas.take (by simp [hkind, Ends]) hhas.depth_le
      · split
        · rename_i hkind
          exact kept_call (hhas.leave (hkind ▸ rfl))
        · exact hhas.past_le_succ
  | hold parsed => exact kept_goOn h
  | done result => exact h

/-- After the last token no more is read than nestings are allowed, and one. -/
theorem Kept.past_le {state : State} (h : Kept state) : state.cursor.past ≤ maxNesting + 1 := by
  obtain ⟨target, frames, focus, cursor⟩ := state
  cases focus with
  | start | seek | first =>
      have hwants : Wants _ cursor := h
      exact hwants.past_le_succ
  | word | hold | between =>
      have hhas : Has _ cursor := h
      exact hhas.past_le_succ
  | done => exact h

theorem following_eq (cursor : Cursor) : cursor.following = cursor.advance.current := by
  obtain ⟨rest, last, past⟩ := cursor
  cases rest <;> rfl

theorem start_of_assign {tokens : List Token} {target : String}
    (hname : (Cursor.ofTokens tokens).current.kind = .name target)
    (hassign : (Cursor.ofTokens tokens).following.kind = .mark .assign) :
    start tokens = ⟨some target, [], .start, (Cursor.ofTokens tokens).advance.advance⟩ := by
  simp only [start, hname, hassign]

theorem start_of_not_assign {tokens : List Token}
    (h : ∀ target, (Cursor.ofTokens tokens).current.kind = .name target →
      (Cursor.ofTokens tokens).following.kind ≠ .mark .assign) :
    start tokens = ⟨none, [], .start, .ofTokens tokens⟩ := by
  unfold start
  dsimp only
  split
  · rename_i target hname hassign
    exact absurd hassign (h target hname)
  · rfl

theorem kept_ofTokens (target : Option String) (tokens : List Token) :
    Kept ⟨target, [], .start, .ofTokens tokens⟩ :=
  show Wants 0 (.ofTokens tokens) from
    { tidy := Tidy.ofTokens tokens
      depth_le := Nat.zero_le _
      past_le := Nat.le_refl 0
      not_ends := fun hnil => by
        obtain rfl : tokens = [] := hnil
        exact id }

/-- What every step keeps holds before the first one. -/
theorem kept_start (tokens : List Token) : Kept (start tokens) := by
  by_cases hassign : ∃ target, (Cursor.ofTokens tokens).current.kind = .name target
      ∧ (Cursor.ofTokens tokens).following.kind = .mark .assign
  · obtain ⟨target, hname, hassign⟩ := hassign
    rw [start_of_assign hname hassign]
    rw [following_eq] at hassign
    have htidy := Tidy.ofTokens tokens
    have hrest : (Cursor.ofTokens tokens).advance.rest ≠ [] := fun hnil => by
      have hsame := current_of_rest_nil hnil
      rw [htidy.last_of_rest_nil hnil] at hsame
      rw [hsame, hname] at hassign
      cases hassign
    exact
      { tidy := htidy.advance.advance
        depth_le := Nat.zero_le _
        past_le := Nat.le_of_eq (htidy.advance.past_advance hrest)
        not_ends := fun hnil => by
          rw [htidy.advance.last_of_rest_nil hnil, hassign]
          rintro ⟨⟩ }
  · rw [start_of_not_assign fun target hname hmark => hassign ⟨target, hname, hmark⟩]
    exact kept_ofTokens none tokens

/-! ### One token a step -/

/-- One state is the other at a different place: where both stayed, or one token further, if also
the token there is the same. -/
def SamePlaced (cursor place : Cursor) (next other : State) : Prop :=
  (next.cursor = cursor ∧ other = { next with cursor := place })
    ∨ (next.cursor = cursor.advance
      ∧ (place.advance.current = cursor.advance.current →
        other = { next with cursor := place.advance }))

theorem SamePlaced.stay {cursor : Cursor} (next : State) (place : Cursor)
    (h : next.cursor = cursor) : SamePlaced cursor place next { next with cursor := place } :=
  .inl ⟨h, rfl⟩

theorem SamePlaced.take {cursor : Cursor} (next : State) (place : Cursor)
    (h : next.cursor = cursor.advance) :
    SamePlaced cursor place next { next with cursor := place.advance } :=
  .inr ⟨h, fun _ => rfl⟩

theorem samePlaced_enter (target : Option String) (around frames : List Frame)
    (before focus : Focus) (cursor place : Cursor) :
    SamePlaced cursor place (State.enter ⟨target, around, before, cursor.advance⟩ frames focus)
      (State.enter ⟨target, around, before, place.advance⟩ frames focus) := by
  unfold State.enter
  dsimp only
  split
  · exact .take _ _ rfl
  · refine .inr ⟨rfl, fun hnext => ?_⟩
    rw [hnext]
    rfl

theorem build_with (state : State) (frames : List Frame) (expr : Expr) (height position : Nat)
    (place : Cursor) :
    State.build { state with cursor := place } frames expr height position
      = { state.build frames expr height position with cursor := place } := by
  unfold State.build
  split <;> rfl

theorem cursor_build (state : State) (frames : List Frame) (expr : Expr) (height position : Nat) :
    (state.build frames expr height position).cursor = state.cursor := by
  unfold State.build
  split <;> rfl

section

variable {target : Option String} {frames : List Frame} {focus : Focus} {cursor place : Cursor}

theorem unexpected_eq (h : place.current = cursor.current) (wanted : SyntaxError.Wanted) :
    place.unexpected wanted = cursor.unexpected wanted := by
  rw [Cursor.unexpected, Cursor.unexpected, h]

theorem samePlaced_seekOperand (h : place.current = cursor.current) :
    SamePlaced cursor place (State.seekOperand ⟨target, frames, focus, cursor⟩)
      (State.seekOperand ⟨target, frames, focus, place⟩) := by
  unfold State.seekOperand
  simp only [h, unexpected_eq h]
  split
  iterate 3 exact samePlaced_enter _ _ _ _ _ _ _
  iterate 4 exact .take _ _ rfl
  exact .stay _ _ rfl

/-- Going on from an expression looks at no more than the token at the cursor. -/
theorem samePlaced_goOn (h : place.current = cursor.current) (parsed : Parsed) :
    SamePlaced cursor place (State.goOn ⟨target, frames, focus, cursor⟩ parsed)
      (State.goOn ⟨target, frames, focus, place⟩ parsed) := by
  unfold State.goOn
  simp only [h, unexpected_eq h]
  split
  · split <;> exact .stay _ _ rfl
  · split
    · exact .stay _ _ rfl
    · exact .take _ _ rfl
  · exact .inl ⟨cursor_build _ _ _ _ _, build_with ⟨_, _, _, cursor⟩ _ _ _ _ place⟩
  · exact .inl ⟨cursor_build _ _ _ _ _, build_with ⟨_, _, _, cursor⟩ _ _ _ _ place⟩
  · split
    · exact .take _ _ rfl
    · exact .stay _ _ rfl
  · exact .stay _ _ rfl

theorem samePlaced_call (function : Builtin) (position : Nat) (arguments : List Parsed) :
    SamePlaced cursor place
      (State.call ⟨target, frames, focus, cursor.advance⟩ function position arguments)
      (State.call ⟨target, frames, focus, place.advance⟩ function position arguments) :=
  .inr ⟨cursor_build _ _ _ _ _, fun _ => build_with ⟨_, _, _, cursor.advance⟩ _ _ _ _ _⟩

/-- A step looks at one token, and takes no more than that one. -/
theorem samePlaced_step (h : place.current = cursor.current) :
    SamePlaced cursor place (step ⟨target, frames, focus, cursor⟩)
      (step ⟨target, frames, focus, place⟩) := by
  unfold step
  simp only [h, unexpected_eq h]
  cases focus with
  | start =>
      dsimp only
      split <;> exact .stay _ _ rfl
  | seek level =>
      dsimp only
      split
      · exact .stay _ _ rfl
      · exact samePlaced_seekOperand h
  | word name position =>
      dsimp only
      split
      · split
        · exact .stay _ _ rfl
        · exact samePlaced_enter _ _ _ _ _ _ _
      · exact .stay _ _ rfl
  | first function position =>
      dsimp only
      split
      · exact samePlaced_call _ _ _
      · exact .stay _ _ rfl
  | between function position arguments =>
      dsimp only
      split
      · exact .take _ _ rfl
      · split
        · exact samePlaced_call _ _ _
        · exact .stay _ _ rfl
  | hold parsed => exact samePlaced_goOn h parsed
  | done result => exact .stay _ _ rfl

end

/-- A step stays at its place or takes one token. -/
theorem cursor_step (state : State) :
    (step state).cursor = state.cursor
      ∨ (step state).cursor = state.cursor.advance :=
  (samePlaced_step rfl).imp And.left And.left

/-! ### Many steps -/

def Reaches (state other : State) : Prop := ∃ steps, step^[steps] state = other

section

variable {state other third : State}

theorem Reaches.refl (state : State) : Reaches state state := ⟨0, rfl⟩

theorem Reaches.trans (h : Reaches state other) (hmore : Reaches other third) :
    Reaches state third := by
  obtain ⟨steps, rfl⟩ := h
  obtain ⟨more, rfl⟩ := hmore
  exact ⟨more + steps, Function.iterate_add_apply step more steps state⟩

theorem Reaches.step (h : Reaches (step state) other) : Reaches state other :=
  Reaches.trans ⟨1, rfl⟩ h

theorem kept_iterate (h : Kept state) (steps : Nat) : Kept (Descent.step^[steps] state) :=
  Function.Iterate.rec Kept h (fun _ => kept_step) steps

/-- Whatever is reached has kept what every step keeps. -/
theorem Reaches.kept (hreaches : Reaches state other) (h : Kept state) : Kept other := by
  obtain ⟨steps, rfl⟩ := hreaches
  exact kept_iterate h steps

theorem length_step_le (state : State) :
    (Descent.step state).cursor.rest.length ≤ state.cursor.rest.length := by
  rcases cursor_step state with hcursor | hcursor
  · exact Nat.le_of_eq (congrArg (·.rest.length) hcursor)
  · exact hcursor ▸ length_advance_le state.cursor

/-- No token that was taken is given back. -/
theorem Reaches.length_le (h : Reaches state other) :
    other.cursor.rest.length ≤ state.cursor.rest.length := by
  obtain ⟨steps, rfl⟩ := h
  exact Function.Iterate.rec
    (fun next : State => next.cursor.rest.length ≤ state.cursor.rest.length) (Nat.le_refl _)
    (fun next hle => Nat.le_trans (length_step_le next) hle) steps

end

/-! ### The machine comes to what the readers come to -/

def Arrives {α : Type} (state : State) (result : Except SyntaxError α) (next : α → State) : Prop :=
  match result with
  | .ok a => Reaches state (next a)
  | .error error => ∃ other, Reaches state other ∧ other.focus = .done (.error error)

section

variable {α β : Type} {state other : State} {result : Except SyntaxError α} {next : α → State}

theorem Reaches.arrives (h : Reaches state other) (hmore : Arrives other result next) :
    Arrives state result next := by
  cases result with
  | ok a => exact h.trans hmore
  | error error =>
      obtain ⟨final, hfinal, hfocus⟩ := hmore
      exact ⟨final, h.trans hfinal, hfocus⟩

theorem Arrives.step (h : Arrives (step state) result next) : Arrives state result next :=
  (Reaches.refl _).step.arrives h

/-- The machine does one computation after the other. -/
theorem Arrives.bind {first : Except SyntaxError β} {middle : β → State}
    {rest : β → Except SyntaxError α} (h : Arrives state first middle)
    (hrest : ∀ b, Reaches state (middle b) → Arrives (middle b) (rest b) next) :
    Arrives state (first >>= rest) next := by
  cases first with
  | ok b => exact Reaches.arrives h (hrest b h)
  | error error => exact h

theorem Arrives.ok {a : α} : Arrives (next a) (.ok a) next := Reaches.refl _

theorem Arrives.stop {error : SyntaxError} (state : State) :
    Arrives (state.stop error) (.error error) next := ⟨_, .refl _, rfl⟩

end

/-- Where this comes next, the machine holds in the end what the reader reads. -/
def Performs (room : Nat) (focus : Focus) (reader : Reader) : Prop :=
  ∀ ⦃target : Option String⦄ ⦃frames : List Frame⦄ ⦃cursor : Cursor⦄,
    nesting frames + room = maxNesting → Kept ⟨target, frames, focus, cursor⟩ →
    Arrives ⟨target, frames, focus, cursor⟩ (reader cursor) fun read =>
      ⟨target, frames, .hold read.1, read.2⟩

section

variable {room level : Nat} {target : Option String} {frames : List Frame} {cursor : Cursor}

theorem arrives_build (state : State) (frames : List Frame) (expr : Expr) (height position : Nat) :
    Arrives (state.build frames expr height position) (allowedHeight height position) fun height =>
      { state with frames, focus := .hold ⟨expr, height⟩ } := by
  unfold State.build
  cases allowedHeight height position with
  | ok height => exact .ok
  | error error => exact .stop _

theorem length_advance_lt (h : cursor.rest ≠ []) :
    cursor.advance.rest.length < cursor.rest.length := by
  obtain ⟨rest, last, past⟩ := cursor
  cases rest with
  | nil => exact absurd rfl h
  | cons first rest => exact Nat.lt_succ_self _

/-- The machine reads a chain as the reader does. -/
theorem arrives_chainFrom {operand : Reader} (hoperand : Performs room (.seek (level + 1)) operand)
    (hroom : nesting frames + room = maxNesting) {left : Parsed} {tokens : Nat}
    (hhas : Has (nesting frames) cursor) (htokens : cursor.rest.length ≤ tokens) :
    Arrives ⟨target, .chain level :: frames, .hold left, cursor⟩
      (Reader.chainFrom level operand tokens left cursor) fun read =>
        ⟨target, frames, .hold read.1, read.2⟩ := by
  induction tokens generalizing left cursor with
  | zero =>
      -- No token is left, so the last one ended an operand and is no operator.
      have hnone : BinaryOp.ofKind? level cursor.current.kind = none := by
        cases hop : BinaryOp.ofKind? level cursor.current.kind with
        | none => rfl
        | some op =>
            have hrest := hhas.rest_ne_nil (not_ends_of_operator hop)
            exact absurd (List.eq_nil_of_length_eq_zero (Nat.le_zero.mp htokens)) hrest
      refine Arrives.step ?_
      simp only [step, State.goOn, hnone]
      exact .ok
  | succ tokens ih =>
      refine Arrives.step ?_
      unfold Reader.chainFrom
      cases hop : BinaryOp.ofKind? level cursor.current.kind with
      | none =>
          simp only [step, State.goOn, hop]
          exact .ok
      | some op =>
          simp only [step, State.goOn, hop]
          have hends := not_ends_of_operator hop
          have hkept : Kept ⟨target, .join level op left :: frames, .seek (level + 1),
              cursor.advance⟩ := hhas.take hends hhas.depth_le
          refine (@hoperand _ (.join level op left :: frames) _ hroom hkept).bind ?_
          rintro ⟨right, after⟩ hreaches
          have hafter : Has (nesting frames) after := hreaches.kept hkept
          have hlength : after.rest.length ≤ cursor.advance.rest.length := hreaches.length_le
          have hadvance := length_advance_lt (hhas.rest_ne_nil hends)
          refine Arrives.step ((arrives_build _ _ _ _ _).bind fun height _ => ?_)
          have hless : after.rest.length ≤ tokens := by omega
          exact ih hafter hless

theorem performs_chain {operand : Reader} (hlevel : level < 7)
    (hoperand : Performs room (.seek (level + 1)) operand) :
    Performs room (.seek level) (Reader.chain level operand) := by
  intro target frames cursor hroom hkept
  refine Arrives.step ?_
  simp only [step, if_pos hlevel]
  refine (@hoperand _ (.chain level :: frames) _ hroom hkept).bind ?_
  rintro ⟨first, after⟩ hreaches
  exact arrives_chainFrom hoperand hroom (hreaches.kept hkept) (Nat.le_refl _)

/-- The machine reads every level as its reader does. -/
theorem performs_levelReader {operand : Reader} (hoperand : Performs room (.seek 7) operand)
    (level : Nat) (hlevel : level ≤ 7) :
    Performs room (.seek level) (levelReader operand level) := by
  by_cases hlt : level < 7
  · rw [Reader.levelReader_of_lt hlt]
    exact performs_chain hlt (performs_levelReader hoperand (level + 1) hlt)
  · obtain rfl : level = 7 := by omega
    rwa [Reader.levelReader_of_le (Nat.le_refl 7)]
termination_by 7 - level

theorem performs_expression {operand : Reader} (hoperand : Performs room (.seek 7) operand) :
    Performs room .start (Reader.expression operand) := by
  intro target frames cursor hroom hkept
  refine Arrives.step ?_
  by_cases hfinish : cursor.current.kind = .finish
  · simp only [step, if_pos hfinish, Reader.expression]
    exact .stop _
  · rw [Reader.expression_eq_levelReader hfinish]
    simp only [step, if_neg hfinish]
    exact performs_levelReader hoperand 1 (by omega) hroom hkept

/-! ### Operands -/

/-- A nesting is entered where the readers enter one. -/
theorem arrives_enter {α : Type} {state : State} {frames : List Frame} {focus : Focus}
    {rest : Reader → Except SyntaxError α} {next : α → State}
    (hroom : nesting state.frames + room = maxNesting)
    (h : ∀ less, room = less + 1 →
      Arrives { state with frames, focus } (rest (operand less)) next) :
    Arrives (state.enter frames focus) (Reader.enter (deeper room) state.cursor >>= rest) next := by
  cases room with
  | zero =>
      have hnot : ¬ nesting state.frames < maxNesting := by omega
      simp only [State.enter, if_neg hnot]
      exact .stop _
  | succ less =>
      have hlt : nesting state.frames < maxNesting := by omega
      simp only [State.enter, if_pos hlt]
      exact h less rfl

theorem arrives_sign {op : UnaryOp} (hoperand : ∀ less, room = less + 1 →
      Performs less (.seek 7) (operand less))
    (hroom : nesting frames + room = maxNesting) (hwants : Wants (nesting frames) cursor)
    (hends : ¬ Ends cursor.current.kind) (focus : Focus) :
    Arrives (State.enter ⟨target, frames, focus, cursor.advance⟩
        (.sign op cursor.current.position :: frames) (.seek 7))
      (Reader.sign (deeper room) op cursor) fun read => ⟨target, frames, .hold read.1, read.2⟩ := by
  refine arrives_enter hroom fun less hless => ?_
  have hdeeper : nesting (.sign op cursor.current.position :: frames) + less = maxNesting := by
    rw [nesting_sign]
    omega
  have hkept : Kept ⟨target, .sign op cursor.current.position :: frames, .seek 7,
      cursor.advance⟩ := by
    simpa [Kept] using hwants.enter hends (by omega)
  refine (hoperand less hless hdeeper hkept).bind ?_
  rintro ⟨child, after⟩ -
  refine Arrives.step ((arrives_build _ _ _ _ _).bind fun height _ => .ok)

theorem arrives_expect {mark : Mark} {α : Type} {state taken : State}
    {rest : Cursor → Except SyntaxError α} {next : α → State}
    (h : cursor.current.kind = .mark mark → Arrives taken (rest cursor.advance) next) :
    Arrives (if cursor.current.kind = .mark mark then taken
      else state.stop (cursor.unexpected (.mark mark))) (cursor.expect mark >>= rest) next := by
  unfold Cursor.expect
  split
  · exact h ‹_›
  · exact .stop _

theorem arrives_group (hoperand : ∀ less, room = less + 1 →
      Performs less (.seek 7) (operand less))
    (hroom : nesting frames + room = maxNesting) (hwants : Wants (nesting frames) cursor)
    (hends : ¬ Ends cursor.current.kind) (focus : Focus) :
    Arrives (State.enter ⟨target, frames, focus, cursor.advance⟩ (.group :: frames) .start)
      (Reader.group (deeper room) cursor) fun read => ⟨target, frames, .hold read.1, read.2⟩ := by
  refine arrives_enter hroom fun less hless => ?_
  have hdeeper : nesting (.group :: frames) + less = maxNesting := by
    rw [nesting_group]
    omega
  have hkept : Kept ⟨target, .group :: frames, .start, cursor.advance⟩ := by
    simpa [Kept] using hwants.enter hends (by omega)
  refine (performs_expression (hoperand less hless) hdeeper hkept).bind ?_
  rintro ⟨inner, after⟩ -
  exact Arrives.step (arrives_expect fun _ => .ok)

end

/-! ### Calls -/

def called (function : Builtin) (position : Nat) (arguments : List Parsed) (after : Cursor) :
    Except SyntaxError (Parsed × Cursor) := do
  let deepest := (arguments.map Parsed.height).foldl max 0
  let height ← allowedHeight (deepest + 1) position
  .ok (⟨.call function (arguments.map Parsed.expr), height⟩, after)

section

variable {room : Nat} {target : Option String} {frames : List Frame} {cursor : Cursor}
  {function : Builtin} {position : Nat}

theorem arrives_called (state : State) (arguments : List Parsed) :
    Arrives (state.call function position arguments)
      (called function position arguments state.cursor) fun read =>
        ⟨state.target, state.frames, .hold read.1, read.2⟩ :=
  (arrives_build _ _ _ _ _).bind fun _ _ => .ok

theorem arrives_closed {arguments : List Parsed} (hcomma : cursor.current.kind ≠ .mark .comma) :
    Arrives ⟨target, frames, .between function position arguments, cursor⟩
      (cursor.expect .rightParen >>= called function position arguments) fun read =>
        ⟨target, frames, .hold read.1, read.2⟩ := by
  refine Arrives.step ?_
  simp only [step, if_neg hcomma]
  exact arrives_expect fun _ => arrives_called _ _

theorem arrives_furtherArguments {argument : Reader} (hargument : Performs room .start argument)
    (hroom : nesting frames + 1 + room = maxNesting) {arguments : List Parsed} {tokens : Nat}
    (hhas : Has (nesting frames + 1) cursor) (htokens : cursor.rest.length ≤ tokens) :
    Arrives ⟨target, frames, .between function position arguments, cursor⟩
      (Reader.furtherArguments argument tokens cursor >>= fun read =>
        read.2.expect .rightParen >>= called function position (arguments ++ read.1)) fun read =>
          ⟨target, frames, .hold read.1, read.2⟩ := by
  have hclosed : ∀ {cursor} {arguments : List Parsed}, cursor.current.kind ≠ .mark .comma →
      Arrives ⟨target, frames, .between function position arguments, cursor⟩
        (cursor.expect .rightParen >>= called function position (arguments ++ [])) fun read =>
          ⟨target, frames, .hold read.1, read.2⟩ := fun {cursor arguments} hcomma => by
    rw [List.append_nil]
    exact arrives_closed hcomma
  induction tokens generalizing cursor arguments with
  | zero =>
      -- No token is left, so the last one ended an operand and is no comma.
      refine hclosed fun hcomma => ?_
      have hrest := hhas.rest_ne_nil (by simp [hcomma, Ends])
      exact hrest (List.eq_nil_of_length_eq_zero (Nat.le_zero.mp htokens))
  | succ tokens ih =>
      unfold Reader.furtherArguments
      split
      · rename_i hcomma
        have hends : ¬ Ends cursor.current.kind := by simp [hcomma, Ends]
        have hdeeper : nesting (.argument function position arguments :: frames) + room
            = maxNesting := by rwa [nesting_argument]
        have hkept : Kept ⟨target, .argument function position arguments :: frames, .start,
            cursor.advance⟩ := by
          simpa [Kept] using hhas.take hends hhas.depth_le
        refine Arrives.step ?_
        simp only [step, if_pos hcomma, bind_assoc]
        refine (hargument hdeeper hkept).bind ?_
        rintro ⟨first, after⟩ hreaches
        have hafter : Has (nesting frames + 1) after := by
          simpa [Kept] using hreaches.kept hkept
        have hlength : after.rest.length ≤ cursor.advance.rest.length := hreaches.length_le
        have hadvance := length_advance_lt (hhas.rest_ne_nil hends)
        have hless : after.rest.length ≤ tokens := by omega
        have hothers := @ih after (arguments ++ [first]) hafter hless
        simp only [List.append_assoc, List.singleton_append] at hothers
        exact Arrives.step hothers
      · rename_i hcomma
        exact hclosed hcomma

theorem arrives_callArguments {argument : Reader} (hargument : Performs room .start argument)
    (hroom : nesting frames + 1 + room = maxNesting)
    (hwants : Wants (nesting frames + 1) cursor) :
    Arrives ⟨target, frames, .first function position, cursor⟩
      (Reader.callArguments argument cursor >>= fun read =>
        called function position read.1 read.2) fun read =>
        ⟨target, frames, .hold read.1, read.2⟩ := by
  refine Arrives.step ?_
  unfold Reader.callArguments
  split
  · rename_i hclose
    simp only [step, if_pos hclose]
    exact arrives_called _ _
  · rename_i hclose
    simp only [step, if_neg hclose, bind_assoc]
    have hdeeper : nesting (.argument function position [] :: frames) + room = maxNesting := by
      rwa [nesting_argument]
    have hkept : Kept ⟨target, .argument function position [] :: frames, .start, cursor⟩ := by
      simpa [Kept] using hwants
    refine (hargument hdeeper hkept).bind ?_
    rintro ⟨first, after⟩ hreaches
    have hafter : Has (nesting frames + 1) after := by
      simpa [Kept] using hreaches.kept hkept
    exact Arrives.step (arrives_furtherArguments hargument hroom hafter (Nat.le_refl _))

/-- The machine reads a call as the reader does. -/
theorem arrives_call {name : String} (hoperand : ∀ less, room = less + 1 →
      Performs less (.seek 7) (operand less))
    (hroom : nesting frames + room = maxNesting) (hhas : Has (nesting frames) cursor.advance)
    (hparen : cursor.following.kind = .mark .leftParen) :
    Arrives ⟨target, frames, .word name cursor.current.position, cursor.advance⟩
      (Reader.call (deeper room) name cursor) fun read =>
        ⟨target, frames, .hold read.1, read.2⟩ := by
  rw [following_eq] at hparen
  have hends : ¬ Ends cursor.advance.current.kind := by simp [hparen, Ends]
  refine Arrives.step ?_
  unfold Reader.call
  cases hname : Builtin.ofName? name with
  | none =>
      simp only [step, if_pos hparen, hname]
      exact .stop _
  | some function =>
      simp only [step, if_pos hparen, hname]
      refine arrives_enter hroom fun less hless => ?_
      have hdeeper : nesting frames + 1 + less = maxNesting := by omega
      have hwants : Wants (nesting frames + 1) cursor.advance.advance :=
        hhas.take hends (by omega)
      exact arrives_callArguments (performs_expression (hoperand less hless)) hdeeper hwants

theorem arrives_variable {name : String} (hparen : cursor.current.kind ≠ .mark .leftParen) :
    Arrives ⟨target, frames, .word name position, cursor⟩
      (.ok ((⟨.var name, 1⟩ : Parsed), cursor)) fun read =>
        ⟨target, frames, .hold read.1, read.2⟩ := by
  refine Arrives.step ?_
  simp only [step, if_neg hparen]
  exact .ok

/-! ### Everything together -/

/-- The machine reads operands as their reader does if it reads those within them so. -/
theorem performs_operandWith (hoperand : ∀ less, room = less + 1 →
      Performs less (.seek 7) (operand less)) :
    Performs room (.seek 7) (Reader.operandWith (deeper room)) := by
  intro target frames cursor hroom hkept
  have hwants : Wants (nesting frames) cursor := hkept
  refine Arrives.step ?_
  have hseven : ¬ 7 < 7 := Nat.lt_irrefl 7
  simp only [step, if_neg hseven, State.seekOperand]
  unfold Reader.operandWith
  cases hkind : cursor.current.kind with
  | number x | text s | bool b =>
      simp only [Reader.primary, hkind]
      exact .ok
  | name name =>
      have hhas : Has (nesting frames) cursor.advance := hwants.take (hkind ▸ trivial)
      simp only [Reader.primary, hkind]
      split
      · rename_i hparen
        exact arrives_call hoperand hroom hhas hparen
      · rename_i hparen
        rw [following_eq] at hparen
        exact arrives_variable hparen
  | finish =>
      simp only [Reader.primary, hkind]
      exact .stop _
  | mark mark =>
      have hends : mark ≠ .rightParen → ¬ Ends cursor.current.kind := by simp [hkind, Ends]
      cases mark with
      | minus | bang => exact arrives_sign hoperand hroom hwants (hends (by simp)) _
      | leftParen =>
          simp only [Reader.primary, hkind]
          exact arrives_group hoperand hroom hwants (hends (by simp)) _
      | _ =>
          simp only [Reader.primary, hkind]
          exact .stop _

/-- The machine reads operands as their reader does, by induction on the room. -/
theorem performs_operand (room : Nat) : Performs room (.seek 7) (operand room) := by
  rw [Reader.operand_eq]
  induction room with
  | zero => exact performs_operandWith (by simp)
  | succ room ih =>
      refine performs_operandWith fun less hless => ?_
      cases hless
      rwa [Reader.operand_eq]

/-- The machine ends, with what the readers make of the same tokens. -/
theorem reaches_done (hkept : Kept ⟨target, [], .start, cursor⟩) :
    ∃ other, Reaches ⟨target, [], .start, cursor⟩ other
      ∧ other.focus = .done (do
        let (parsed, after) ← Reader.outermost cursor
        after.expectFinish
        .ok (statementOf target parsed.expr)) := by
  have houtermost := performs_expression (performs_operand maxNesting) (Nat.zero_add _) hkept
  unfold Reader.outermost
  cases hread : Reader.expression (operand maxNesting) cursor with
  | error error =>
      rw [hread] at houtermost
      exact houtermost
  | ok read =>
      rw [hread] at houtermost
      refine ⟨_, houtermost.trans (Reaches.refl _).step, ?_⟩
      by_cases hfinish : read.2.current.kind = .finish
      · simp [step, State.goOn, hfinish, Cursor.expectFinish, bind, Except.bind]
      · simp [step, State.goOn, hfinish, Cursor.expectFinish, bind, Except.bind, State.stop]

theorem ofTokens_eq_outermost (tokens : List Token) :
    ∃ target cursor, start tokens = ⟨target, [], .start, cursor⟩
      ∧ Statement.ofTokens tokens = (do
        let (parsed, after) ← Reader.outermost cursor
        after.expectFinish
        .ok (statementOf target parsed.expr)) := by
  unfold Statement.ofTokens
  dsimp only
  split
  · rename_i target hname hassign
    exact ⟨_, _, start_of_assign hname hassign, rfl⟩
  · rename_i hother
    exact ⟨_, _, start_of_not_assign hother, rfl⟩

/-- The machine ends with the statement that the parser reads, or with its complaint. -/
theorem reaches_done_ofTokens (tokens : List Token) :
    ∃ other, Reaches (start tokens) other ∧ other.focus = .done (Statement.ofTokens tokens) := by
  obtain ⟨target, cursor, hstart, hresult⟩ := ofTokens_eq_outermost tokens
  have hkept := kept_start tokens
  rw [hstart] at hkept ⊢
  rw [hresult]
  exact reaches_done hkept

theorem reaches_done_expr (tokens : List Token) :
    ∃ other, Reaches ⟨none, [], .start, .ofTokens tokens⟩ other
      ∧ other.focus = .done ((Expr.ofTokens tokens).map .eval) := by
  have hresult : (Expr.ofTokens tokens).map Statement.eval = (do
      let (parsed, after) ← Reader.outermost (.ofTokens tokens)
      after.expectFinish
      .ok (statementOf none parsed.expr)) := by
    unfold Expr.ofTokens
    cases Reader.outermost (.ofTokens tokens) with
    | error error => rfl
    | ok read =>
        cases hend : read.2.expectFinish with
        | error error => simp [bind, Except.bind, Except.map, hend]
        | ok finished => simp [bind, Except.bind, Except.map, hend, statementOf]
  rw [hresult]
  exact reaches_done (kept_ofTokens none tokens)

end

/-- Whatever the tokens are, and whether or not an end mark stands among them, the machine that
reads a statement comes to what the parser returns after finitely many steps, and at no time is it
further past the last token than the greatest nesting and one more. Where the parser has read the
expression of the statement, the machine has been at the same place with the same expression. -/
theorem reading_stops_near_the_end (tokens : List Token) :
    (∃ steps, (step^[steps] (start tokens)).focus = .done (Statement.ofTokens tokens))
      ∧ (∀ steps, (step^[steps] (start tokens)).cursor.past ≤ maxNesting + 1)
      ∧ ∀ parsed after, Reader.outermost (start tokens).cursor = .ok (parsed, after) →
        ∃ steps, step^[steps] (start tokens)
          = ⟨(start tokens).target, [], .hold parsed, after⟩ := by
  refine ⟨?_, fun steps => (kept_iterate (kept_start tokens) steps).past_le, ?_⟩
  · obtain ⟨other, ⟨steps, rfl⟩, hfocus⟩ := reaches_done_ofTokens tokens
    exact ⟨steps, hfocus⟩
  · intro parsed after hread
    obtain ⟨target, cursor, hstart, -⟩ := ofTokens_eq_outermost tokens
    have hkept := kept_start tokens
    rw [hstart] at hkept hread ⊢
    have hperforms := performs_expression (performs_operand maxNesting) (Nat.zero_add _) hkept
    rwa [← Reader.outermost, hread] at hperforms

end Flowchart.Descent
