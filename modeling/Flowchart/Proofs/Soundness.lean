import Flowchart.Proofs.Cursor
import Flowchart.Proofs.Grammar

/-!
# What the readers accept

A reader that succeeds has taken tokens off the cursor that derive the expression it returns, within
the room for nesting it was given, and the height it returns is the height of that expression. This
is proved of the tokens that are ended by their only end mark: past the last token of other lists the
last one is read again, so that what was read is no part of the list.
-/

namespace Flowchart

open Token (Kind)
open Grammar

namespace Reader

/-- An expression of a level was read from one place to the other, within the room for nesting there
was, and its height is known and allowed. -/
structure Took (room level : Nat) (before : Cursor) (parsed : Parsed) (after : Cursor) : Prop where
  derives : ∃ kinds nesting, before.Reads after kinds ∧ nesting ≤ room
    ∧ Derives level kinds parsed.expr nesting
  height_eq : parsed.height = parsed.expr.height
  height_le : parsed.expr.height ≤ maxHeight

def Sound (room level : Nat) (reader : Reader) : Prop :=
  ∀ ⦃cursor parsed after⦄, cursor.IsEnded → reader cursor = .ok (parsed, after) →
    Took room level cursor parsed after

theorem Took.ended {room level : Nat} {before after : Cursor} {parsed : Parsed}
    (h : Took room level before parsed after) : after.IsEnded := by
  obtain ⟨kinds, nesting, hreads, -⟩ := h.derives
  exact hreads.ended

theorem Took.tighter {room level : Nat} {before after : Cursor} {parsed : Parsed}
    (h : Took room (level + 1) before parsed after) : Took room level before parsed after := by
  obtain ⟨kinds, nesting, hreads, hnesting, hderives⟩ := h.derives
  exact ⟨⟨kinds, nesting, hreads, hnesting, .tighter hderives⟩, h.height_eq, h.height_le⟩

theorem allowedHeight_eq_ok_iff {height position result : Nat} :
    allowedHeight height position = .ok result ↔ height ≤ maxHeight ∧ result = height := by
  unfold allowedHeight
  split
  · simp [*, eq_comm]
  · simp [*]

/-! ### Chains -/

variable {room level : Nat}

theorem chainFrom_sound {operand : Reader} (hoperand : Sound room (level + 1) operand)
    {start cursor after : Cursor} {tokens : Nat} {left parsed : Parsed}
    (hleft : Took room level start left cursor)
    (h : chainFrom level operand tokens left cursor = .ok (parsed, after)) :
    Took room level start parsed after := by
  -- What is read so far is the left operand of the next operator, which is why chains lean left.
  induction tokens generalizing left cursor with
  | zero =>
      simp only [chainFrom, Except.ok.injEq, Prod.mk.injEq] at h
      obtain ⟨rfl, rfl⟩ := h
      exact hleft
  | succ tokens ih =>
      unfold chainFrom at h
      split at h
      · simp only [Except.ok.injEq, Prod.mk.injEq] at h
        obtain ⟨rfl, rfl⟩ := h
        exact hleft
      · rename_i op hop
        obtain ⟨⟨right, next⟩, hread, h⟩ := bind_eq_ok_iff.mp h
        obtain ⟨height, hheight, h⟩ := bind_eq_ok_iff.mp h
        obtain ⟨hallowed, rfl⟩ := allowedHeight_eq_ok_iff.mp hheight
        obtain ⟨mark, hmark, hmem⟩ := ofKind?_eq_some_iff.mp hop
        have hmarkRead := hleft.ended.reads_advance hmark (by simp)
        have hright := hoperand hmarkRead.ended hread
        obtain ⟨leftKinds, leftNesting, hleftRead, hleftRoom, hleftDerives⟩ := hleft.derives
        obtain ⟨rightKinds, rightNesting, hrightRead, hrightRoom, hrightDerives⟩ := hright.derives
        have hheightEq : max left.height right.height + 1
            = (Expr.binary op left.expr right.expr).height := by
          rw [hleft.height_eq, hright.height_eq, Expr.height]
        have hjoined : Took room level start
            ⟨.binary op left.expr right.expr, max left.height right.height + 1⟩ next :=
          { derives := ⟨_, _, hleftRead.trans (hmarkRead.trans hrightRead),
              Nat.max_le.mpr ⟨hleftRoom, hrightRoom⟩, .join hmem hleftDerives hrightDerives⟩
            height_eq := hheightEq
            height_le := hheightEq ▸ hallowed }
        exact ih hjoined h

/-- What is read as a chain is one, if what is read as its operands is. -/
theorem chain_sound {operand : Reader} (hoperand : Sound room (level + 1) operand) :
    Sound room level (chain level operand) := by
  intro cursor parsed after hcursor h
  obtain ⟨⟨first, next⟩, hread, h⟩ := bind_eq_ok_iff.mp h
  exact chainFrom_sound hoperand (hoperand hcursor hread).tighter h

/-- How expressions of a level are read, given how operands are: the six chains by their number. -/
def levelReader (operand : Reader) (level : Nat) : Reader :=
  if level < 7 then chain level (levelReader operand (level + 1)) else operand
termination_by 7 - level

theorem levelReader_of_lt {operand : Reader} (h : level < 7) :
    levelReader operand level = chain level (levelReader operand (level + 1)) := by
  rw [levelReader, if_pos h]

theorem levelReader_of_le {operand : Reader} (h : 7 ≤ level) :
    levelReader operand level = operand := by
  rw [levelReader, if_neg (by omega)]

theorem expression_eq_levelReader {operand : Reader} {cursor : Cursor}
    (h : cursor.current.kind ≠ .finish) :
    expression operand cursor = levelReader operand 1 cursor := by
  simp [expression, levelReader, h]

/-- What is read at a level is an expression of it. -/
theorem levelReader_sound {operand : Reader} (hoperand : Sound room 7 operand) (level : Nat)
    (hlevel : level ≤ 7) : Sound room level (levelReader operand level) := by
  by_cases hlt : level < 7
  · rw [levelReader_of_lt hlt]
    exact chain_sound (levelReader_sound hoperand (level + 1) hlt)
  · obtain rfl : level = 7 := by omega
    rwa [levelReader_of_le (Nat.le_refl 7)]
termination_by 7 - level

theorem expression_sound {operand : Reader} (hoperand : Sound room 7 operand) :
    Sound room 1 (expression operand) := by
  intro cursor parsed after hcursor h
  by_cases hfinish : cursor.current.kind = .finish
  · simp [expression, hfinish] at h
  · rw [expression_eq_levelReader hfinish] at h
    exact levelReader_sound hoperand 1 (by omega) hcursor h

/-! ### Operands -/

def deeper : Nat → Option Reader
  | 0 => none
  | room + 1 => some (operand room)

theorem operand_eq (room : Nat) : operand room = operandWith (deeper room) := by
  cases room <;> rfl

theorem enter_eq_ok_iff {cursor : Cursor} {reader : Reader} :
    enter (deeper room) cursor = .ok reader ↔ ∃ less, room = less + 1 ∧ reader = operand less := by
  cases room with
  | zero => simp [deeper, enter]
  | succ less => simp [deeper, enter, eq_comm]

/-- What is read as an operator before its operand is one. -/
theorem sign_sound {op : UnaryOp} {mark : Mark} (hop : (mark, op) ∈ signs)
    (hoperand : ∀ less, room = less + 1 → Sound less 7 (operand less))
    {cursor after : Cursor} {parsed : Parsed} (hcursor : cursor.IsEnded)
    (hmark : cursor.current.kind = .mark mark)
    (h : sign (deeper room) op cursor = .ok (parsed, after)) :
    Took room 7 cursor parsed after := by
  obtain ⟨reader, henter, h⟩ := bind_eq_ok_iff.mp h
  obtain ⟨less, rfl, rfl⟩ := enter_eq_ok_iff.mp henter
  obtain ⟨⟨child, next⟩, hread, h⟩ := bind_eq_ok_iff.mp h
  obtain ⟨height, hheight, h⟩ := bind_eq_ok_iff.mp h
  obtain ⟨hallowed, rfl⟩ := allowedHeight_eq_ok_iff.mp hheight
  simp only [Except.ok.injEq, Prod.mk.injEq] at h
  obtain ⟨rfl, rfl⟩ := h
  have hmarkRead := hcursor.reads_advance hmark (by simp)
  have hchild := hoperand less rfl hmarkRead.ended hread
  obtain ⟨kinds, nesting, hreads, hnesting, hderives⟩ := hchild.derives
  have hheightEq : child.height + 1 = (Expr.unary op child.expr).height := by
    rw [hchild.height_eq, Expr.height]
  exact
    { derives := ⟨_, _, hmarkRead.trans hreads, Nat.succ_le_succ hnesting, .sign hop hderives⟩
      height_eq := hheightEq
      height_le := hheightEq ▸ hallowed }

theorem group_sound (hoperand : ∀ less, room = less + 1 → Sound less 7 (operand less))
    {cursor after : Cursor} {parsed : Parsed} (hcursor : cursor.IsEnded)
    (hmark : cursor.current.kind = .mark .leftParen)
    (h : group (deeper room) cursor = .ok (parsed, after)) :
    Took room 8 cursor parsed after := by
  obtain ⟨reader, henter, h⟩ := bind_eq_ok_iff.mp h
  obtain ⟨less, rfl, rfl⟩ := enter_eq_ok_iff.mp henter
  obtain ⟨⟨inner, next⟩, hread, h⟩ := bind_eq_ok_iff.mp h
  obtain ⟨closed, hclosed, h⟩ := bind_eq_ok_iff.mp h
  simp only [Except.ok.injEq, Prod.mk.injEq] at h
  obtain ⟨rfl, rfl⟩ := h
  have hopen := hcursor.reads_advance hmark (by simp)
  have hinner := expression_sound (hoperand less rfl) hopen.ended hread
  have hclose := hinner.ended.reads_expect hclosed
  obtain ⟨kinds, nesting, hreads, hnesting, hderives⟩ := hinner.derives
  exact
    { derives := ⟨_, _, hopen.trans (hreads.trans hclose), Nat.succ_le_succ hnesting,
        .group hderives⟩
      height_eq := hinner.height_eq
      height_le := hinner.height_le }

/-! ### Calls -/

structure TookAll (room : Nat) (before : Cursor) (arguments : List Parsed) (after : Cursor) :
    Prop where
  derives : ∃ phrases : List Phrase, before.Reads after (listed phrases)
    ∧ phrases.map Phrase.expr = arguments.map Parsed.expr
    ∧ ∀ phrase ∈ phrases, phrase.nesting ≤ room ∧ Derives 1 phrase.kinds phrase.expr phrase.nesting
  height_eq : ∀ argument ∈ arguments, argument.height = argument.expr.height

theorem Took.alone {before after : Cursor} {argument : Parsed}
    (h : Took room 1 before argument after) : TookAll room before [argument] after := by
  obtain ⟨kinds, nesting, hreads, hnesting, hderives⟩ := h.derives
  exact
    { derives := ⟨[⟨kinds, argument.expr, nesting⟩], by simpa [listed] using hreads, rfl,
        by simpa using ⟨hnesting, hderives⟩⟩
      height_eq := by simpa using h.height_eq }

theorem Took.followedBy {before cursor after : Cursor} {first second : Parsed}
    {others : List Parsed} (hfirst : Took room 1 before first cursor)
    (hcomma : cursor.current.kind = .mark .comma)
    (hothers : TookAll room cursor.advance (second :: others) after) :
    TookAll room before (first :: second :: others) after := by
  obtain ⟨kinds, nesting, hreads, hnesting, hderives⟩ := hfirst.derives
  obtain ⟨phrases, hothersRead, hexprs, hphrases⟩ := hothers.derives
  have hcommaRead := hfirst.ended.reads_advance hcomma (by simp)
  refine
    { derives := ⟨⟨kinds, first.expr, nesting⟩ :: phrases, ?_, by simpa using hexprs, ?_⟩
      height_eq := ?_ }
  · cases phrases with
    | nil => simp at hexprs
    | cons next phrases =>
        rw [listed_cons] at hothersRead
        rw [listed_cons, List.flatMap_cons]
        exact hreads.trans (hcommaRead.trans hothersRead)
  · simpa using ⟨⟨hnesting, hderives⟩, hphrases⟩
  · simpa using ⟨hfirst.height_eq, by simpa using hothers.height_eq⟩

theorem furtherArguments_sound {argument : Reader} (hargument : Sound room 1 argument)
    {before cursor after : Cursor} {tokens : Nat} {first : Parsed} {others : List Parsed}
    (hfirst : Took room 1 before first cursor)
    (h : furtherArguments argument tokens cursor = .ok (others, after)) :
    TookAll room before (first :: others) after := by
  induction tokens generalizing before cursor first others with
  | zero =>
      simp only [furtherArguments, Except.ok.injEq, Prod.mk.injEq] at h
      obtain ⟨rfl, rfl⟩ := h
      exact hfirst.alone
  | succ tokens ih =>
      unfold furtherArguments at h
      split at h
      · rename_i hcomma
        obtain ⟨⟨second, next⟩, hread, h⟩ := bind_eq_ok_iff.mp h
        obtain ⟨⟨more, finish⟩, hmore, h⟩ := bind_eq_ok_iff.mp h
        simp only [Except.ok.injEq, Prod.mk.injEq] at h
        obtain ⟨rfl, rfl⟩ := h
        have hcommaRead := hfirst.ended.reads_advance hcomma (by simp)
        exact hfirst.followedBy hcomma (ih (hargument hcommaRead.ended hread) hmore)
      · simp only [Except.ok.injEq, Prod.mk.injEq] at h
        obtain ⟨rfl, rfl⟩ := h
        exact hfirst.alone

/-- The arguments of a call were read together with its closing parenthesis. -/
theorem callArguments_sound {argument : Reader} (hargument : Sound room 1 argument)
    {cursor after : Cursor} {arguments : List Parsed} (hcursor : cursor.IsEnded)
    (h : callArguments argument cursor = .ok (arguments, after)) :
    ∃ inner, TookAll room cursor arguments inner ∧ inner.Reads after [.mark .rightParen] := by
  unfold callArguments at h
  split at h
  · rename_i hclose
    simp only [Except.ok.injEq, Prod.mk.injEq] at h
    obtain ⟨rfl, rfl⟩ := h
    have hnone : TookAll room cursor [] cursor :=
      { derives := ⟨[], .refl hcursor, rfl, by simp⟩
        height_eq := by simp }
    exact ⟨cursor, hnone, hcursor.reads_advance hclose (by simp)⟩
  · obtain ⟨⟨first, next⟩, hread, h⟩ := bind_eq_ok_iff.mp h
    obtain ⟨⟨others, finish⟩, hothers, h⟩ := bind_eq_ok_iff.mp h
    obtain ⟨closed, hclosed, h⟩ := bind_eq_ok_iff.mp h
    simp only [Except.ok.injEq, Prod.mk.injEq] at h
    obtain ⟨rfl, rfl⟩ := h
    have htook := furtherArguments_sound hargument (hargument hcursor hread) hothers
    obtain ⟨phrases, hreads, -⟩ := htook.derives
    exact ⟨finish, htook, hreads.ended.reads_expect hclosed⟩

theorem foldl_max_eq_heightAll {arguments : List Parsed}
    (h : ∀ argument ∈ arguments, argument.height = argument.expr.height) :
    (arguments.map Parsed.height).foldl max 0 = Expr.heightAll (arguments.map Parsed.expr) := by
  have hfold : ∀ start, (arguments.map Parsed.height).foldl max start
      = max start (Expr.heightAll (arguments.map Parsed.expr)) := by
    induction arguments with
    | nil => simp [Expr.heightAll]
    | cons first rest ih =>
        intro start
        have hrest := ih (fun argument hmem => h argument (List.mem_cons_of_mem _ hmem))
        rw [List.map_cons, List.foldl_cons, hrest, h first (by simp), List.map_cons,
          Expr.heightAll, Nat.max_assoc]
  simpa using hfold 0

theorem name_of_ofName?_eq_some {name : String} {function : Builtin}
    (h : Builtin.ofName? name = some function) : name = function.name := by
  unfold Builtin.ofName? at h
  split at h
  · cases h
    assumption
  · split at h
    · cases h
      assumption
    · cases h

/-- What is read as a call is one. -/
theorem call_sound (hoperand : ∀ less, room = less + 1 → Sound less 7 (operand less))
    {cursor after : Cursor} {name : String} {parsed : Parsed} (hcursor : cursor.IsEnded)
    (hname : cursor.current.kind = .name name)
    (hparen : cursor.following.kind = .mark .leftParen)
    (h : call (deeper room) name cursor = .ok (parsed, after)) :
    Took room 8 cursor parsed after := by
  unfold call at h
  split at h
  · cases h
  · rename_i function hfunction
    obtain ⟨reader, henter, h⟩ := bind_eq_ok_iff.mp h
    obtain ⟨less, rfl, rfl⟩ := enter_eq_ok_iff.mp henter
    obtain ⟨⟨arguments, next⟩, harguments, h⟩ := bind_eq_ok_iff.mp h
    obtain ⟨height, hheight, h⟩ := bind_eq_ok_iff.mp h
    obtain ⟨hallowed, rfl⟩ := allowedHeight_eq_ok_iff.mp hheight
    simp only [Except.ok.injEq, Prod.mk.injEq] at h
    obtain ⟨rfl, rfl⟩ := h
    have hnameRead := hcursor.reads_advance hname (by simp)
    have hparenRead := hnameRead.ended.reads_advance
      ((congrArg Token.kind hnameRead.spans.following).symm.trans hparen) (by simp)
    obtain ⟨inner, htook, hclose⟩ :=
      callArguments_sound (expression_sound (hoperand less rfl)) hparenRead.ended harguments
    obtain ⟨phrases, hreads, hexprs, hphrases⟩ := htook.derives
    have hderives := Derives.call function phrases fun phrase hmem => (hphrases phrase hmem).2
    rw [← name_of_ofName?_eq_some hfunction, hexprs] at hderives
    have hheightEq : (arguments.map Parsed.height).foldl max 0 + 1
        = (Expr.call function (arguments.map Parsed.expr)).height := by
      rw [foldl_max_eq_heightAll htook.height_eq, Expr.height]
    exact
      { derives := ⟨_, _, hnameRead.trans (hparenRead.trans (hreads.trans hclose)),
          Nat.succ_le_succ (deepest_le_iff.mpr fun phrase hmem => (hphrases phrase hmem).1),
          hderives⟩
        height_eq := hheightEq
        height_le := hheightEq ▸ hallowed }

/-! ### Everything together -/

theorem Took.leaf {cursor : Cursor} {kind : Kind} {expr : Expr} (hcursor : cursor.IsEnded)
    (hkind : cursor.current.kind = kind) (hne : kind ≠ .finish) (hheight : expr.height = 1)
    (hderives : Derives 8 [kind] expr 0) : Took room 8 cursor ⟨expr, 1⟩ cursor.advance :=
  { derives := ⟨[kind], 0, hcursor.reads_advance hkind hne, Nat.zero_le _, hderives⟩
    height_eq := hheight.symm
    height_le := by simp [hheight, maxHeight] }

/-- What is read as an operand in itself is one. -/
theorem primary_sound (hoperand : ∀ less, room = less + 1 → Sound less 7 (operand less)) :
    Sound room 8 (primary (deeper room)) := by
  intro cursor parsed after hcursor h
  unfold primary at h
  split at h
  · rename_i hkind
    cases h
    exact .leaf hcursor hkind (by simp) (by simp [Expr.height]) (.number _)
  · rename_i hkind
    cases h
    exact .leaf hcursor hkind (by simp) (by simp [Expr.height]) (.text _)
  · rename_i hkind
    cases h
    exact .leaf hcursor hkind (by simp) (by simp [Expr.height]) (.bool _)
  · rename_i hkind
    split at h
    · rename_i hparen
      exact call_sound hoperand hcursor hkind hparen h
    · cases h
      exact .leaf hcursor hkind (by simp) (by simp [Expr.height]) (.var _)
  · rename_i hkind
    exact group_sound hoperand hcursor hkind h
  · cases h

theorem operandWith_sound (hoperand : ∀ less, room = less + 1 → Sound less 7 (operand less)) :
    Sound room 7 (operandWith (deeper room)) := by
  intro cursor parsed after hcursor h
  unfold operandWith at h
  split at h
  · rename_i hkind
    exact sign_sound (by simp [signs]) hoperand hcursor hkind h
  · rename_i hkind
    exact sign_sound (by simp [signs]) hoperand hcursor hkind h
  · exact (primary_sound hoperand hcursor h).tighter

/-- Whatever is read as an operand is one, by induction on the room. -/
theorem operand_sound (room : Nat) : Sound room 7 (operand room) := by
  rw [operand_eq]
  induction room with
  | zero => exact operandWith_sound (by simp)
  | succ room ih =>
      refine operandWith_sound fun less hless => ?_
      cases hless
      rwa [operand_eq]

/-- **Soundness.** An expression that stands in no other is read as the grammar has it. -/
theorem outermost_sound : Sound maxNesting 1 outermost := expression_sound (operand_sound _)

end Reader

end Flowchart
