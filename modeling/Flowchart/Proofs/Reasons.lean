import Flowchart.Proofs.Recording

/-!
# What a reason says

The reason for what a condition came to is the text of the condition, with the values that its
variables had. Here the text of an expression is taken apart into pieces, where each name is a piece
of its own: the pieces alone make the text, and with notes behind the names they make the reason.
Parts at which nothing was evaluated are left out with the operator before them. Parentheses are the
same in both, because every part keeps the place that it is printed for.
-/

namespace Flowchart

inductive Piece where
  | text (s : String)
  /-- A variable, at one of its places. -/
  | mention (name : String)

namespace Piece

def shown (note : String → String) : Piece → String
  | text s => s
  | mention name => name ++ note name

def shownAll (note : String → String) (pieces : List Piece) : String :=
  String.join (pieces.map (shown note))

def name? : Piece → Option String
  | text _ => none
  | mention name => some name

def names (pieces : List Piece) : List String := pieces.filterMap name?

def parenthesized (needed : Bool) (pieces : List Piece) : List Piece :=
  if needed then text "(" :: (pieces ++ [text ")"]) else pieces

def separated (separator : String) (parts : List (List Piece)) : List Piece :=
  [text separator].intercalate parts

variable {note : String → String} {front back : List Piece}

@[simp]
theorem shownAll_append : shownAll note (front ++ back) = shownAll note front ++ shownAll note back := by
  rw [shownAll, List.map_append, String.join_append]
  rfl

@[simp]
theorem shownAll_text (s : String) (pieces : List Piece) :
    shownAll note (text s :: pieces) = s ++ shownAll note pieces := by
  rw [shownAll, List.map_cons, String.join_cons]
  rfl

@[simp]
theorem shownAll_nil : shownAll note [] = "" := rfl

theorem shownAll_mention (name : String) : shownAll note [mention name] = name ++ note name := by
  simp [shownAll, shown]

theorem shownAll_parenthesized (needed : Bool) (pieces : List Piece) :
    shownAll note (parenthesized needed pieces)
      = Flowchart.parenthesized needed (shownAll note pieces) := by
  cases needed with
  | false => rfl
  | true => simp [parenthesized, Flowchart.parenthesized, String.append_assoc]

theorem shownAll_separated (separator : String) (parts : List (List Piece)) :
    shownAll note (separated separator parts) = separator.intercalate (parts.map (shownAll note)) := by
  induction parts with
  | nil => rfl
  | cons first rest ih =>
      cases rest with
      | nil => simp [separated]
      | cons second rest =>
          rw [separated] at ih ⊢
          rw [List.intercalate_cons_cons, List.map_cons, List.map_cons, String.intercalate_cons_cons,
            ← List.map_cons, ← ih]
          simp [String.append_assoc]

theorem names_append : names (front ++ back) = names front ++ names back := List.filterMap_append

theorem names_text (s : String) (pieces : List Piece) : names (text s :: pieces) = names pieces :=
  List.filterMap_cons_none rfl

theorem names_parenthesized (needed : Bool) (pieces : List Piece) :
    names (parenthesized needed pieces) = names pieces := by
  cases needed with
  | false => rfl
  | true =>
      rw [parenthesized, if_pos rfl, names_text, names_append, names_text]
      exact List.append_nil _

theorem names_separated (separator : String) (parts : List (List Piece)) :
    names (separated separator parts) = parts.flatMap names := by
  induction parts with
  | nil => rfl
  | cons first rest ih =>
      cases rest with
      | nil => simp [separated]
      | cons second rest =>
          rw [separated] at ih ⊢
          rw [List.intercalate_cons_cons, names_append, names_append, ih, names_text,
            List.flatMap_cons]
          simp [names]

end Piece

open Piece (shownAll names separated)

def Environment.note (environment : Environment) (name : String) : String :=
  match environment.get? name with
  | some value => " (was " ++ value.literal ++ ")"
  | none => ""

namespace Expr

mutual

/-- The pieces of the text of an expression where operators of at least the given precedence may
stand bare. An operator whose right operand is at an omitted place is there by its left operand
alone, between the parentheses that the operator needs. -/
def piecesAt (omitted : List Nat → Bool) (context : Nat) : Expr → List Piece
  | literal value => [.text value.literal]
  | var name => [.mention name]
  | unary op operand =>
    Piece.parenthesized (unaryPrecedence < context) <|
      .text op.symbol :: operand.piecesAt (omitted <| 0 :: ·) unaryPrecedence
  | binary op left right =>
    Piece.parenthesized (op.precedence < context) <|
      left.piecesAt (omitted <| 0 :: ·) op.precedence ++
        if omitted [1] then []
        else .text (" " ++ op.symbol ++ " ") ::
          right.piecesAt (omitted <| 1 :: ·) (op.precedence + 1)
  | call function arguments =>
    .text (function.name ++ "(") ::
      (separated ", " (piecesAll (fun i place => omitted (i :: place)) arguments) ++ [.text ")"])

def piecesAll (omitted : Nat → List Nat → Bool) : List Expr → List (List Piece)
  | [] => []
  | argument :: rest => argument.piecesAt (omitted 0) 0 :: piecesAll (fun i => omitted (i + 1)) rest

end

def pieces (expr : Expr) (omitted : List Nat → Bool) : List Piece := expr.piecesAt omitted 0

section Binary

variable {omitted : List Nat → Bool} {op : BinaryOp} {left right : Expr} {context : Nat}
  {note : String → String}

theorem piecesAt_of_omitted (h : omitted [1] = true) :
    (binary op left right).piecesAt omitted context
      = Piece.parenthesized (op.precedence < context)
        (left.piecesAt (omitted <| 0 :: ·) op.precedence) := by
  rw [piecesAt, if_pos h, List.append_nil]

theorem shownAll_of_not_omitted (h : omitted [1] = false) :
    shownAll note ((binary op left right).piecesAt omitted context)
      = parenthesized (op.precedence < context)
        (shownAll note (left.piecesAt (omitted <| 0 :: ·) op.precedence) ++ " " ++ op.symbol ++ " "
          ++ shownAll note (right.piecesAt (omitted <| 1 :: ·) (op.precedence + 1))) := by
  rw [piecesAt, h, if_neg Bool.false_ne_true, Piece.shownAll_parenthesized, Piece.shownAll_append,
    Piece.shownAll_text]
  simp only [String.append_assoc]

theorem names_of_not_omitted (h : omitted [1] = false) :
    names ((binary op left right).piecesAt omitted context)
      = names (left.piecesAt (omitted <| 0 :: ·) op.precedence)
        ++ names (right.piecesAt (omitted <| 1 :: ·) (op.precedence + 1)) := by
  rw [piecesAt, h, if_neg Bool.false_ne_true, Piece.names_parenthesized, Piece.names_append,
    Piece.names_text]

end Binary

theorem shownAll_call (omitted : List Nat → Bool) (context : Nat) (function : Builtin)
    (arguments : List Expr) (note : String → String) :
    shownAll note ((call function arguments).piecesAt omitted context)
      = function.name ++ "(" ++ ", ".intercalate
        ((piecesAll (fun i place => omitted (i :: place)) arguments).map (shownAll note)) ++ ")" := by
  rw [piecesAt, Piece.shownAll_text, Piece.shownAll_append, Piece.shownAll_separated,
    Piece.shownAll_text, Piece.shownAll_nil, String.append_empty]
  simp only [String.append_assoc]

theorem names_call (omitted : List Nat → Bool) (context : Nat) (function : Builtin)
    (arguments : List Expr) :
    names ((call function arguments).piecesAt omitted context)
      = (piecesAll (fun i place => omitted (i :: place)) arguments).flatMap names := by
  rw [piecesAt, Piece.names_text, Piece.names_append, Piece.names_separated]
  exact List.append_nil _

/-! ### Pieces of a whole expression -/

section Whole

def whole : List Nat → Bool := fun _ => false

mutual

/-- Without notes and omissions the pieces are the printed text. -/
theorem renderAt_eq_shownAll :
    ∀ (context : Nat) (expr : Expr),
      expr.renderAt context = shownAll (fun _ => "") (expr.piecesAt whole context)
  | _, literal value => by simp [renderAt, piecesAt]
  | _, var name => by simp [renderAt, piecesAt, Piece.shownAll_mention]
  | _, unary op operand => by
      rw [renderAt, renderAt_eq_shownAll, piecesAt, Piece.shownAll_parenthesized,
        Piece.shownAll_text]
      rfl
  | _, binary op left right => by
      rw [renderAt, renderAt_eq_shownAll, renderAt_eq_shownAll _ right, shownAll_of_not_omitted rfl]
      rfl
  | _, call function arguments => by
      rw [renderAt, renderAll_eq_map_shownAll, shownAll_call]
      rfl

theorem renderAll_eq_map_shownAll :
    ∀ arguments : List Expr,
      renderAll arguments = (piecesAll (fun _ => whole) arguments).map (shownAll fun _ => "")
  | [] => rfl
  | argument :: rest => by
      rw [renderAll, renderAt_eq_shownAll, renderAll_eq_map_shownAll, piecesAll, List.map_cons]

end

mutual

/-- The names among the pieces are those that are mentioned. -/
theorem names_piecesAt :
    ∀ (context : Nat) (expr : Expr), names (expr.piecesAt whole context) = expr.mentions
  | _, literal value => rfl
  | _, var name => rfl
  | _, unary op operand => by
      rw [piecesAt, Piece.names_parenthesized, Piece.names_text, mentions]
      exact names_piecesAt _ operand
  | _, binary op left right => by
      rw [names_of_not_omitted rfl, mentions, ← names_piecesAt op.precedence left,
        ← names_piecesAt (op.precedence + 1) right]
      rfl
  | _, call function arguments => by
      rw [names_call, mentions]
      exact names_piecesAll arguments

theorem names_piecesAll :
    ∀ arguments : List Expr,
      (piecesAll (fun _ => whole) arguments).flatMap names = mentionsAll arguments
  | [] => rfl
  | argument :: rest => by
      rw [piecesAll, List.flatMap_cons, names_piecesAt, names_piecesAll, mentionsAll]

end

end Whole

end Expr

/-! ### Pieces of what was evaluated -/

namespace Trace

/-- Nothing was evaluated at this place. -/
def skips (trace : Trace) (place : List Nat) : Bool := (trace.at? place).any isSkipped

theorem skips_iff {trace : Trace} {place : List Nat} :
    trace.skips place ↔ trace.at? place = some .skipped := by
  rw [skips, Option.any_eq_true]
  constructor
  · rintro ⟨record, hrecord, hskipped⟩
    cases record <;> first | exact hrecord | cases hskipped
  · intro h
    exact ⟨_, h, rfl⟩

def skipsAmong (traces : List Trace) (i : Nat) (place : List Nat) : Bool :=
  (traces[i]?.bind (·.at? place)).any isSkipped

theorem reasonAt_binary (context : Nat) (op : BinaryOp) (first second : Trace) (outcome : Value) :
    (binary op.symbol first second outcome).reasonAt context
      = parenthesized (op.precedence < context) (if second.isSkipped then first.reasonAt op.precedence
        else first.reasonAt op.precedence ++ " " ++ op.symbol ++ " "
          ++ second.reasonAt (op.precedence + 1)) := by
  rw [reasonAt, precedence, BinaryOp.ofSymbol?_symbol]
  rfl

end Trace

theorem parenthesized_of_le {own context : Nat} (h : context ≤ own) (text : String) :
    parenthesized (own < context) text = text := by
  rw [decide_eq_false (Nat.not_lt.mpr h)]
  rfl

theorem unaryPrecedence_le : unaryPrecedence ≤ atomPrecedence := by decide

theorem BinaryOp.precedence_lt (op : BinaryOp) : op.precedence < atomPrecedence := by
  cases op <;> decide

theorem Environment.note_of_get? {environment : Environment} {name : String} {value : Value}
    (h : environment.get? name = some value) :
    environment.note name = " (was " ++ value.literal ++ ")" := by
  rw [note, h]

section Records

variable {environment : Environment}

theorem Records.isSkipped_eq_false {expr : Expr} {trace : Trace}
    (h : Records environment expr trace) : trace.isSkipped = false := by
  cases h <;> rfl

mutual

/-- The reason of a trace is its expression's text with notes, without what was skipped. -/
theorem Records.reasonAt_eq :
    ∀ {expr trace} (context : Nat), Records environment expr trace → context ≤ atomPrecedence →
      trace.reasonAt context = shownAll environment.note (expr.piecesAt trace.skips context)
  | _, _, context, .literal value, hcontext => by
      rw [Trace.reasonAt, Expr.piecesAt, Piece.shownAll_text, Piece.shownAll_nil, String.append_empty]
      exact parenthesized_of_le hcontext value.literal
  | _, _, context, .var hvalue, hcontext => by
      rw [Trace.reasonAt, Expr.piecesAt, Piece.shownAll_mention, Environment.note_of_get? hvalue]
      simp only [← String.append_assoc]
      exact parenthesized_of_le hcontext _
  | _, _, context, .unary hchild houtcome, hcontext => by
      rw [Trace.reasonAt, hchild.reasonAt_eq unaryPrecedence unaryPrecedence_le, Expr.piecesAt,
        Piece.shownAll_parenthesized, Piece.shownAll_text]
      -- What is skipped below a child is what the child's own trace skips.
      rfl
  | _, _, context, @Records.decided _ op _ _ _ _ hfirst hdecided houtcome, hcontext => by
      have hown := Nat.le_of_lt op.precedence_lt
      rw [Trace.reasonAt_binary, hfirst.reasonAt_eq op.precedence hown, Expr.piecesAt_of_omitted rfl,
        Piece.shownAll_parenthesized]
      rfl
  | _, _, context, @Records.binary _ op _ _ _ _ _ hfirst hopen hsecond houtcome, hcontext => by
      have hown := Nat.le_of_lt op.precedence_lt
      have hevaluated := hsecond.isSkipped_eq_false
      rw [Trace.reasonAt_binary, hevaluated, if_neg Bool.false_ne_true,
        hfirst.reasonAt_eq op.precedence hown, hsecond.reasonAt_eq (op.precedence + 1) op.precedence_lt,
        Expr.shownAll_of_not_omitted hevaluated]
      rfl
  | _, _, context, .call harguments houtcome, hcontext => by
      rw [Trace.reasonAt, harguments.reasonAll_eq, Expr.shownAll_call]
      exact parenthesized_of_le hcontext _

theorem RecordsAll.reasonAll_eq :
    ∀ {arguments traces}, RecordsAll environment arguments traces →
      Trace.reasonAll traces
        = (Expr.piecesAll (Trace.skipsAmong traces) arguments).map (shownAll environment.note)
  | _, _, .nil => rfl
  | _, _, .cons hfirst hrest => by
      rw [Trace.reasonAll, hfirst.reasonAt_eq 0 (Nat.zero_le _), hrest.reasonAll_eq]
      rfl

end

mutual

/-- Every name in a reason has a value. -/
theorem Records.get?_of_mem_names :
    ∀ {expr trace} (context : Nat), Records environment expr trace →
      ∀ name ∈ names (expr.piecesAt trace.skips context), ∃ value, environment.get? name = some value
  | _, _, _, .literal value => nofun
  | _, _, _, @Records.var _ name value hvalue => by
      intro other hother
      rw [List.mem_singleton.mp hother]
      exact ⟨value, hvalue⟩
  | _, _, _, .unary hchild houtcome => by
      rw [Expr.piecesAt, Piece.names_parenthesized, Piece.names_text]
      exact hchild.get?_of_mem_names unaryPrecedence
  | _, _, _, @Records.decided _ op _ _ _ _ hfirst hdecided houtcome => by
      rw [Expr.piecesAt_of_omitted rfl, Piece.names_parenthesized]
      exact hfirst.get?_of_mem_names op.precedence
  | _, _, _, @Records.binary _ op _ _ _ _ _ hfirst hopen hsecond houtcome => by
      intro name hname
      rw [Expr.names_of_not_omitted hsecond.isSkipped_eq_false, List.mem_append] at hname
      rcases hname with hleft | hright
      · exact hfirst.get?_of_mem_names op.precedence name hleft
      · exact hsecond.get?_of_mem_names (op.precedence + 1) name hright
  | _, _, _, .call harguments houtcome => by
      rw [Expr.names_call]
      exact harguments.get?_of_mem_names

theorem RecordsAll.get?_of_mem_names :
    ∀ {arguments traces}, RecordsAll environment arguments traces →
      ∀ name ∈ (Expr.piecesAll (Trace.skipsAmong traces) arguments).flatMap names,
        ∃ value, environment.get? name = some value
  | _, _, .nil => nofun
  | _, _, .cons hfirst hrest => by
      intro name hname
      rw [Expr.piecesAll, List.flatMap_cons, List.mem_append] at hname
      rcases hname with hname | hname
      · exact hfirst.get?_of_mem_names 0 name hname
      · exact hrest.get?_of_mem_names name hname

end

end Records

/-- **Reasons are annotated texts.** The text of an expression is made of its pieces, which have a
name at each place of a variable. The reason of its trace is made of the same pieces, with what the
variables hold noted behind each name, and without what was skipped: there the operator is shown by
its left operand alone, in the parentheses that the operator needs. Where nothing was skipped, the
reason without the notes is the text. -/
theorem reason_is_annotated_text (environment : Environment) (expr : Expr) :
    shownAll (fun _ => "") (expr.pieces Expr.whole) = expr.render
    ∧ names (expr.pieces Expr.whole) = expr.mentions
    ∧ ∀ trace, (expr.eval environment).result = .ok trace →
      trace.reason = shownAll environment.note (expr.pieces trace.skips)
      ∧ (∀ name ∈ names (expr.pieces trace.skips), ∃ value, environment.get? name = some value
        ∧ environment.note name = " (was " ++ value.literal ++ ")")
      ∧ (∀ place, trace.skips place ↔ trace.at? place = some .skipped)
      ∧ ((∀ place, trace.at? place ≠ some .skipped) →
        shownAll (fun _ => "") (expr.pieces trace.skips) = expr.render) := by
  have hwhole := (Expr.renderAt_eq_shownAll 0 expr).symm
  refine ⟨hwhole, Expr.names_piecesAt 0 expr, fun trace hresult => ?_⟩
  have hrecords := records_of_eval hresult
  refine ⟨hrecords.reasonAt_eq 0 (Nat.zero_le _), fun name hname => ?_, fun place => Trace.skips_iff,
    fun hcomplete => ?_⟩
  · obtain ⟨value, hvalue⟩ := hrecords.get?_of_mem_names 0 name hname
    exact ⟨value, hvalue, Environment.note_of_get? hvalue⟩
  · have hnone : trace.skips = Expr.whole := by
      funext place
      exact Bool.eq_false_iff.mpr fun h => hcomplete place (Trace.skips_iff.mp h)
    rw [hnone]
    exact hwhole

/-- The right operand in `!(x && y)` is left out if `x` is false, and the parentheses stay. -/
theorem reason_is_annotated_text_of_conjunction :
    let expr : Expr := .unary .not (.binary .and (.var "x") (.var "y"))
    let first := Environment.empty.set "x" (.bool false)
    let second := (Environment.empty.set "x" (.bool true)).set "y" (.text "a")
    expr.render = "!(x && y)"
      ∧ (∃ trace, (expr.eval first).result = .ok trace ∧ trace.reason = "!(x (was false))")
      ∧ ∃ trace, (expr.eval second).result = .ok trace
        ∧ trace.reason = "!(x (was true) && y (was \"a\"))"
        ∧ shownAll (fun _ => "") (expr.pieces trace.skips) = expr.render := by
  intro expr first second
  have hshort : (expr.eval first).result = .ok (.unary "!" (.binary "&&" (.var "x" (.bool false))
      .skipped (.bool false)) (.bool true)) := by rfl
  have hlong : (expr.eval second).result = .ok (.unary "!" (.binary "&&" (.var "x" (.bool true))
      (.var "y" (.text "a")) (.bool true)) (.bool false)) := by rfl
  obtain ⟨-, -, hreason⟩ := reason_is_annotated_text first expr
  obtain ⟨-, -, hreasons⟩ := reason_is_annotated_text second expr
  obtain ⟨hpruned, -⟩ := hreason _ hshort
  obtain ⟨hfull, -, -, herased⟩ := hreasons _ hlong
  refine ⟨by decide +kernel, ⟨_, hshort, ?_⟩, _, hlong, ?_, herased ?_⟩
  · rw [hpruned]
    decide +kernel
  · rw [hfull]
    decide +kernel
  · rintro (_ | ⟨_ | i, _ | ⟨_ | _ | j, _ | ⟨k, place⟩⟩⟩) hat <;> cases hat

end Flowchart
