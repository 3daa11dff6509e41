import Flowchart.Evaluation
import Flowchart.Proofs.Execution
import Flowchart.Proofs.Scanning

/-!
# Reading at another place

No reader looks at the offsets of tokens: they only go into complaints. So tokens that stand so many
bytes further on are read in the same way, and what is complained about stands that much further on.
-/

namespace Flowchart

def SyntaxError.shift (offset : Nat) (error : SyntaxError) : SyntaxError :=
  { error with position := error.position + offset }

def shifted {α β : Type} (offset : Nat) (move : α → β) : Except SyntaxError α → Except SyntaxError β
  | .ok a => .ok (move a)
  | .error error => .error (error.shift offset)

variable {offset : Nat}

/-- If each step does the same further on, so do the steps in a row. -/
theorem shifted_bind {α β γ δ : Type} {move : α → β} {moveNext : γ → δ}
    {first : Except SyntaxError α} {next : α → Except SyntaxError γ}
    {further : β → Except SyntaxError δ}
    (h : ∀ a, first = .ok a → further (move a) = shifted offset moveNext (next a)) :
    (shifted offset move first >>= further) = shifted offset moveNext (first >>= next) := by
  cases first with
  | error error => rfl
  | ok a => exact h a rfl

namespace Cursor

def shift (offset : Nat) (cursor : Cursor) : Cursor :=
  { cursor with
    rest := cursor.rest.map (Token.shift offset)
    last := cursor.last.shift offset }

variable (offset : Nat) (cursor : Cursor)

theorem current_shift : (cursor.shift offset).current = cursor.current.shift offset := by
  unfold current shift
  cases cursor.rest <;> rfl

theorem following_shift : (cursor.shift offset).following = cursor.following.shift offset := by
  unfold following shift
  rcases cursor.rest with _ | ⟨_, _ | _⟩ <;> rfl

@[simp] theorem current_kind_shift : (cursor.shift offset).current.kind = cursor.current.kind := by
  rw [current_shift]
  rfl

@[simp] theorem current_position_shift :
    (cursor.shift offset).current.position = cursor.current.position + offset := by
  rw [current_shift]
  rfl

@[simp] theorem following_kind_shift :
    (cursor.shift offset).following.kind = cursor.following.kind := by
  rw [following_shift]
  rfl

@[simp] theorem advance_shift : (cursor.shift offset).advance = cursor.advance.shift offset := by
  obtain ⟨rest, last, past⟩ := cursor
  cases rest <;> rfl

@[simp] theorem length_rest_shift : (cursor.shift offset).rest.length = cursor.rest.length :=
  List.length_map _

@[simp] theorem unexpected_shift (wanted : SyntaxError.Wanted) :
    (cursor.shift offset).unexpected wanted = (cursor.unexpected wanted).shift offset := by
  rw [unexpected, current_shift]
  rfl

/-- A mark is expected in the same way at a later place. -/
theorem expect_shift (mark : Mark) :
    (cursor.shift offset).expect mark = shifted offset (shift offset) (cursor.expect mark) := by
  rw [expect, expect, current_kind_shift, advance_shift, unexpected_shift]
  split <;> rfl

theorem expectFinish_shift :
    (cursor.shift offset).expectFinish = shifted offset id cursor.expectFinish := by
  rw [expectFinish, expectFinish, current_kind_shift, unexpected_shift]
  split <;> rfl

theorem ofTokens_shift {tokens : List Token} (h : tokens ≠ []) :
    ofTokens (tokens.map (Token.shift offset)) = (ofTokens tokens).shift offset := by
  rw [ofTokens, ofTokens, List.getLast?_map, List.getLast?_eq_some_getLast h]
  rfl

end Cursor

namespace Reader

def moved {α : Type} (offset : Nat) : α × Cursor → α × Cursor
  | (a, after) => (a, after.shift offset)

/-- The reader does the same wherever the tokens stand. -/
def Relocates (reader : Reader) : Prop :=
  ∀ offset cursor, reader (cursor.shift offset) = shifted offset (moved offset) (reader cursor)

theorem allowedHeight_shift (height position offset : Nat) :
    allowedHeight height (position + offset)
      = shifted offset id (allowedHeight height position) := by
  unfold allowedHeight
  split <;> rfl

variable {reader : Reader}

/-- A chain is read in the same way at a later place. -/
theorem Relocates.chainFrom (h : reader.Relocates) (level tokens : Nat) (left : Parsed)
    (offset : Nat) (cursor : Cursor) :
    Reader.chainFrom level reader tokens left (cursor.shift offset)
      = shifted offset (moved offset) (Reader.chainFrom level reader tokens left cursor) := by
  -- The bound is the same on both sides: it counts tokens, not bytes.
  induction tokens generalizing left cursor with
  | zero => rfl
  | succ tokens ih =>
      unfold Reader.chainFrom
      rw [Cursor.current_kind_shift]
      cases BinaryOp.ofKind? level cursor.current.kind with
      | none => rfl
      | some op =>
          dsimp only
          rw [Cursor.advance_shift, h]
          refine shifted_bind fun ⟨right, after⟩ _ => ?_
          dsimp only [moved]
          rw [Cursor.current_position_shift, allowedHeight_shift]
          exact shifted_bind fun height _ => ih _ _

theorem Relocates.chain (h : reader.Relocates) (level : Nat) :
    (Reader.chain level reader).Relocates := by
  intro offset cursor
  unfold Reader.chain
  rw [h]
  refine shifted_bind fun ⟨first, after⟩ _ => ?_
  dsimp only [moved]
  rw [Cursor.length_rest_shift]
  exact h.chainFrom _ _ _ _ _

theorem Relocates.expression (h : reader.Relocates) : (Reader.expression reader).Relocates := by
  intro offset cursor
  unfold Reader.expression
  rw [Cursor.current_kind_shift, Cursor.unexpected_shift]
  by_cases hfinish : cursor.current.kind = .finish
  · rw [if_pos hfinish, if_pos hfinish]
    rfl
  · rw [if_neg hfinish, if_neg hfinish]
    exact ((((((h.chain 6).chain 5).chain 4).chain 3).chain 2).chain 1) offset cursor

theorem Relocates.furtherArguments (h : reader.Relocates) (tokens offset : Nat) (cursor : Cursor) :
    Reader.furtherArguments reader tokens (cursor.shift offset)
      = shifted offset (moved offset) (Reader.furtherArguments reader tokens cursor) := by
  induction tokens generalizing cursor with
  | zero => rfl
  | succ tokens ih =>
      unfold Reader.furtherArguments
      rw [Cursor.current_kind_shift]
      by_cases hcomma : cursor.current.kind = .mark .comma
      · rw [if_pos hcomma, if_pos hcomma, Cursor.advance_shift, h]
        refine shifted_bind fun ⟨first, after⟩ _ => ?_
        dsimp only [moved]
        rw [ih]
        exact shifted_bind fun _ _ => rfl
      · rw [if_neg hcomma, if_neg hcomma]
        rfl

theorem Relocates.callArguments (h : reader.Relocates) (offset : Nat) (cursor : Cursor) :
    Reader.callArguments reader (cursor.shift offset)
      = shifted offset (moved offset) (Reader.callArguments reader cursor) := by
  unfold Reader.callArguments
  rw [Cursor.current_kind_shift]
  by_cases hclosed : cursor.current.kind = .mark .rightParen
  · rw [if_pos hclosed, if_pos hclosed, Cursor.advance_shift]
    rfl
  · rw [if_neg hclosed, if_neg hclosed, h]
    refine shifted_bind fun ⟨first, after⟩ _ => ?_
    dsimp only [moved]
    rw [Cursor.length_rest_shift, h.furtherArguments]
    refine shifted_bind fun ⟨others, finish⟩ _ => ?_
    dsimp only [moved]
    rw [Cursor.expect_shift]
    exact shifted_bind fun _ _ => rfl

/-! ### Operands -/

theorem enter_shift (deeper : Option Reader) (offset : Nat) (cursor : Cursor) :
    enter deeper (cursor.shift offset) = shifted offset id (enter deeper cursor) := by
  unfold enter
  rw [Cursor.current_position_shift]
  cases deeper <;> rfl

theorem mem_of_enter {deeper : Option Reader} {cursor : Cursor} {reader : Reader}
    (h : enter deeper cursor = .ok reader) : reader ∈ deeper := by
  cases deeper with
  | none => cases h
  | some other =>
      cases h
      rfl

section Deeper

variable {deeper : Option Reader} (h : ∀ reader ∈ deeper, reader.Relocates)
include h

theorem relocates_sign (op : UnaryOp) : (sign deeper op).Relocates := by
  intro offset cursor
  unfold sign
  rw [Cursor.advance_shift, enter_shift]
  refine shifted_bind fun operand hoperand => ?_
  rw [id, h operand (mem_of_enter hoperand)]
  refine shifted_bind fun ⟨child, after⟩ _ => ?_
  dsimp only [moved]
  rw [Cursor.current_position_shift, allowedHeight_shift]
  exact shifted_bind fun _ _ => rfl

theorem relocates_call (name : String) : (call deeper name).Relocates := by
  intro offset cursor
  unfold call
  cases Builtin.ofName? name with
  | none =>
      dsimp only
      rw [Cursor.current_position_shift]
      rfl
  | some function =>
      dsimp only
      rw [Cursor.advance_shift, Cursor.advance_shift, enter_shift]
      refine shifted_bind fun operand hoperand => ?_
      rw [id, (h operand (mem_of_enter hoperand)).expression.callArguments]
      refine shifted_bind fun ⟨arguments, after⟩ _ => ?_
      dsimp only [moved]
      rw [Cursor.current_position_shift, allowedHeight_shift]
      exact shifted_bind fun _ _ => rfl

theorem relocates_group : (group deeper).Relocates := by
  intro offset cursor
  unfold group
  rw [Cursor.advance_shift, enter_shift]
  refine shifted_bind fun operand hoperand => ?_
  rw [id, (h operand (mem_of_enter hoperand)).expression]
  refine shifted_bind fun ⟨inner, after⟩ _ => ?_
  dsimp only [moved]
  rw [Cursor.expect_shift]
  exact shifted_bind fun _ _ => rfl

theorem relocates_primary : (primary deeper).Relocates := by
  intro offset cursor
  unfold primary
  rw [Cursor.current_kind_shift, Cursor.following_kind_shift, Cursor.advance_shift,
    Cursor.unexpected_shift]
  split
  · rfl
  · rfl
  · rfl
  · split
    · exact relocates_call h _ offset cursor
    · rfl
  · exact relocates_group h offset cursor
  · rfl

theorem relocates_operandWith : (operandWith deeper).Relocates := by
  intro offset cursor
  unfold operandWith
  rw [Cursor.current_kind_shift]
  split
  · exact relocates_sign h _ offset cursor
  · exact relocates_sign h _ offset cursor
  · exact relocates_primary h offset cursor

end Deeper

/-- Operands are read in the same way wherever their tokens stand. -/
theorem relocates_operand (room : Nat) : (operand room).Relocates := by
  -- Every reader above takes the reader of deeper operands as given, so one induction is enough.
  induction room with
  | zero => exact relocates_operandWith fun _ hmem => by cases hmem
  | succ room ih =>
      refine relocates_operandWith fun reader hmem => ?_
      cases hmem
      exact ih

/-- Expressions are read in the same way wherever their tokens stand. -/
theorem relocates_outermost : outermost.Relocates := (relocates_operand maxNesting).expression

end Reader

namespace Statement

/-- **Reading a statement further on** gives the same statement, or makes its complaint there. -/
theorem ofTokens_shift {tokens : List Token} (h : tokens ≠ []) (offset : Nat) :
    ofTokens (tokens.map (Token.shift offset)) = shifted offset id (ofTokens tokens) := by
  unfold ofTokens
  rw [Cursor.ofTokens_shift offset h]
  dsimp only
  rw [Cursor.current_kind_shift, Cursor.following_kind_shift, Cursor.advance_shift,
    Cursor.advance_shift]
  have hclosed : ∀ (statement : Expr → Statement) (parsed : Parsed) (after : Cursor),
      ((after.shift offset).expectFinish >>= fun _ => .ok (statement parsed.expr))
        = shifted offset id (after.expectFinish >>= fun _ => .ok (statement parsed.expr)) := by
    intro statement parsed after
    rw [Cursor.expectFinish_shift]
    exact shifted_bind fun _ _ => rfl
  split
  · rw [Reader.relocates_outermost]
    exact shifted_bind fun ⟨value, after⟩ _ => hclosed (.assign _) value after
  · rw [Reader.relocates_outermost]
    exact shifted_bind fun ⟨parsed, after⟩ _ => hclosed .eval parsed after

/-- Tokens are cut in the same way wherever they stand. -/
theorem splitFrom_shift (offset : Nat) (begun tokens : List Token) :
    splitFrom (begun.map (Token.shift offset)) (tokens.map (Token.shift offset))
      = (splitFrom begun tokens).map (List.map (Token.shift offset)) := by
  induction tokens generalizing begun with
  | nil => rfl
  | cons token rest ih =>
      rw [List.map_cons, splitFrom, splitFrom, List.isEmpty_map]
      change (if token.kind.endsStatement then _ else _) = _
      by_cases hends : token.kind.endsStatement
      · rw [if_pos hends, if_pos hends]
        have hrest := ih []
        rw [List.map_nil] at hrest
        by_cases hempty : begun.isEmpty
        · rw [if_pos hempty, if_pos hempty, hrest]
        · rw [if_neg hempty, if_neg hempty, hrest, List.map_cons, List.map_append]
          rfl
      · rw [if_neg hends, if_neg hends, ← ih, List.map_append]
        rfl

theorem ne_nil_of_mem_splitFrom {begun tokens chunk : List Token}
    (h : chunk ∈ splitFrom begun tokens) : chunk ≠ [] := by
  induction tokens generalizing begun with
  | nil => cases h
  | cons token rest ih =>
      rw [splitFrom] at h
      split at h
      · split at h
        · exact ih h
        · rcases List.mem_cons.mp h with rfl | h
          · exact List.concat_ne_nil _ _
          · exact ih h
      · exact ih h

end Statement

/-! ### Faults of bodies -/

def Fault.shift (offset : Nat) : Fault → Fault
  | unreadable error => unreadable (error.shift offset)
  | fault => fault

namespace Execution

variable {α β : Type}

def shift (offset : Nat) (run : Execution α) : Execution α :=
  { run with result := run.result.mapError (Fault.shift offset) }

/-- Where the first execution complains of no source, only the second one is moved. -/
theorem shift_andThen {first : Execution α}
    (h : ∀ error, first.result ≠ .error (.unreadable error)) (offset : Nat)
    (next : Environment → α → Execution β) :
    (first.andThen next).shift offset
      = first.andThen fun environment a => (next environment a).shift offset := by
  cases hresult : first.result with
  | error fault =>
      have hfault : fault.shift offset = fault := by
        cases fault with
        | unreadable error => exact absurd hresult (h error)
        | _ => rfl
      rw [andThen_of_error hresult, andThen_of_error hresult, shift, Except.mapError, hfault]
  | ok a =>
      rw [andThen_of_ok hresult, andThen_of_ok hresult]
      rfl

theorem shift_map (offset : Nat) (f : α → β) (run : Execution α) :
    (run.map f).shift offset = (run.shift offset).map f := by
  rw [shift, shift, map, map]
  cases run.result <;> rfl

end Execution

/-- **Executing statements further on** does the same, with complaints further on. -/
theorem Body.execChunks_shift {chunks : List (List Token)} (h : ∀ chunk ∈ chunks, chunk ≠ [])
    (offset : Nat) (environment : Environment) :
    execChunks environment (chunks.map (List.map (Token.shift offset)))
      = (execChunks environment chunks).shift offset := by
  induction chunks generalizing environment with
  | nil => rfl
  | cons chunk rest ih =>
      obtain ⟨hchunk, hrest⟩ := List.forall_mem_cons.mp h
      have hread := Statement.ofTokens_shift hchunk offset
      rw [List.map_cons]
      cases hstatement : Statement.ofTokens chunk with
      | error error =>
          rw [hstatement] at hread
          rw [execChunks_of_unreadable hread, execChunks_of_unreadable hstatement]
          rfl
      | ok statement =>
          rw [hstatement] at hread
          rw [execChunks_of_readable hread, execChunks_of_readable hstatement,
            Execution.shift_andThen (statement.run_ne_unreadable environment)]
          simp only [ih hrest]
          rfl

end Flowchart
