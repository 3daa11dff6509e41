import Flowchart.Proofs.Depth
import Flowchart.Proofs.Descent

/-!
# Reading with counters

The readers are handed the tokens that are left and the room for nesting that is left. Here the same
is done over all the tokens with two counters, the number of the next token and the nestings that
have been entered, which are set by hand wherever a token is taken and a nesting is entered or left.
Nothing else bounds the descent.

What is read so is what the readers read, and the nestings entered are all left again. Within tokens
that an end mark closes, something is taken in any case, the end mark never is, and the height that
is returned is that of the tree.
-/

namespace Flowchart

open Token (Kind)
open Reader (allowedHeight)

structure Counters where
  index : Nat
  nesting : Nat

namespace Counters

/-- Reading that sets counters. If it fails there is no use for them any more. -/
abbrev Counting := StateT Counters (Except SyntaxError)

/-! ### Reading -/

section Reading

variable (tokens : List Token)

/-- The token with a number. Past the last token that one stands again. -/
def tokenAt (index : Nat) : Token := tokens[index]?.getD (tokens.getLast?.getD ⟨.finish, 0⟩)

def current : Counting Token := return tokenAt tokens (← get).index

def following : Counting Token := return tokenAt tokens ((← get).index + 1)

def take (count : Nat) : Counting Unit :=
  modify fun counters => { counters with index := counters.index + count }

def unexpected {α : Type} (wanted : SyntaxError.Wanted) : Counting α := do
  let token ← current tokens
  throw ⟨token.position, .expected wanted token.kind⟩

def eat (mark : Mark) : Counting Bool := do
  if (← current tokens).kind = .mark mark then
    take 1
    return true
  else return false

def expect (mark : Mark) : Counting Unit := do
  if ← eat tokens mark then return ()
  else unexpected tokens (.mark mark)

def descend : Counting Unit := do
  modify fun counters => { counters with nesting := counters.nesting + 1 }
  if maxNesting < (← get).nesting then throw ⟨(← current tokens).position, .tooDeep⟩
  else return ()

def ascend : Counting Unit :=
  modify fun counters => { counters with nesting := counters.nesting - 1 }

/-- Goes on with a chain for so many rounds at most. Each takes an operator, so that as many rounds
as there are tokens left are enough. -/
def chainFrom (level : Nat) (operand : Counting Parsed) : Nat → Parsed → Counting Parsed
  | 0, left => return left
  | rounds + 1, left => do
    match BinaryOp.ofKind? level (← current tokens).kind with
    | none => return left
    | some op =>
      take 1
      let right ← operand
      let position := (← current tokens).position
      let height ← allowedHeight (max left.height right.height + 1) position
      chainFrom level operand rounds ⟨.binary op left.expr right.expr, height⟩

def chain (level : Nat) (operand : Counting Parsed) : Counting Parsed := do
  let first ← operand
  chainFrom tokens level operand (tokens.length - (← get).index) first

/-- An expression with operators of so many levels, the tightest ones, given how operands are
read. -/
def tightest (operand : Counting Parsed) : Nat → Counting Parsed
  | 0 => operand
  | levels + 1 => chain tokens (6 - levels) (tightest operand levels)

def atLevel (operand : Counting Parsed) (level : Nat) : Counting Parsed :=
  tightest tokens operand (7 - level)

def expression (operand : Counting Parsed) : Counting Parsed := do
  if (← current tokens).kind = .finish then unexpected tokens .expression
  else atLevel tokens operand 1

def sign (operand : Counting Parsed) (op : UnaryOp) : Counting Parsed := do
  let position := (← current tokens).position
  take 1
  descend tokens
  let child ← operand
  ascend
  let height ← allowedHeight (child.height + 1) position
  return ⟨.unary op child.expr, height⟩

def furtherArguments (argument : Counting Parsed) : Nat → Counting (List Parsed)
  | 0 => return []
  | rounds + 1 => do
    if ← eat tokens .comma then
      let first ← argument
      let others ← furtherArguments argument rounds
      return first :: others
    else return []

def callArguments (argument : Counting Parsed) : Counting (List Parsed) := do
  if ← eat tokens .rightParen then return []
  else
    let first ← argument
    let others ← furtherArguments tokens argument (tokens.length - (← get).index)
    expect tokens .rightParen
    return first :: others

def call (operand : Counting Parsed) (name : String) (position : Nat) : Counting Parsed :=
  match Builtin.ofName? name with
  | none => throw ⟨position, .unknownFunction name⟩
  | some function => do
    take 2
    descend tokens
    let arguments ← callArguments tokens (expression tokens operand)
    ascend
    let deepest := (arguments.map Parsed.height).foldl max 0
    let height ← allowedHeight (deepest + 1) position
    return ⟨.call function (arguments.map Parsed.expr), height⟩

def group (operand : Counting Parsed) : Counting Parsed := do
  take 1
  descend tokens
  let inner ← expression tokens operand
  expect tokens .rightParen
  ascend
  return inner

def leaf (expr : Expr) : Counting Parsed := do
  take 1
  return ⟨expr, 1⟩

def primary (operand : Counting Parsed) : Counting Parsed := do
  let token ← current tokens
  match token.kind with
  | .number x => leaf (.literal (.number x))
  | .text s => leaf (.literal (.text s))
  | .bool b => leaf (.literal (.bool b))
  | .name name =>
    if (← following tokens).kind = .mark .leftParen then call tokens operand name token.position
    else leaf (.var name)
  | .mark .leftParen => group tokens operand
  | _ => unexpected tokens .expression

def unary (operand : Counting Parsed) : Counting Parsed := do
  match (← current tokens).kind with
  | .mark .minus => sign tokens operand .negate
  | .mark .bang => sign tokens operand .not
  | _ => primary tokens operand

def operandWithin : Nat → Counting Parsed
  -- To enter a nesting fails before the operand in it is asked for.
  | 0 => unary tokens (throw ⟨0, .tooDeep⟩)
  | nestings + 1 => unary tokens (operandWithin nestings)

/-- An operand, within which operands are read in the same way. As many nestings as may still be
entered are enough to follow them. -/
def operand : Counting Parsed := fun counters =>
  operandWithin tokens (maxNesting - counters.nesting) counters

end Reading

/-! ### Places by their number -/

section

variable (tokens : List Token) (index : Nat)

def cursorAt : Cursor :=
  ⟨tokens.drop index, tokens.getLast?.getD ⟨.finish, 0⟩, index - tokens.length⟩

theorem current_cursorAt : (cursorAt tokens index).current = tokenAt tokens index := by
  rw [Cursor.current, cursorAt, List.headD_eq_head?_getD, List.head?_drop]
  rfl

theorem advance_cursorAt : (cursorAt tokens index).advance = cursorAt tokens (index + 1) := by
  rw [cursorAt, cursorAt]
  by_cases hindex : index < tokens.length
  · have hpast : index - tokens.length = index + 1 - tokens.length := by omega
    rw [List.drop_eq_getElem_cons hindex, hpast]
    rfl
  · have hpast : index - tokens.length + 1 = index + 1 - tokens.length := by omega
    rw [List.drop_eq_nil_of_le (by omega), List.drop_eq_nil_of_le (by omega), ← hpast]
    rfl

theorem following_cursorAt : (cursorAt tokens index).following = tokenAt tokens (index + 1) := by
  rw [Descent.following_eq, advance_cursorAt, current_cursorAt]

variable {tokens} in
/-- Different numbers stand for different places. -/
theorem index_of_cursorAt {index next : Nat} (h : cursorAt tokens index = cursorAt tokens next) :
    index = next := by
  have hlength := congrArg (fun cursor => cursor.rest.length) h
  have hpast := congrArg Cursor.past h
  simp only [cursorAt, List.length_drop] at hlength hpast
  omega

theorem length_rest_cursorAt : (cursorAt tokens index).rest.length = tokens.length - index :=
  List.length_drop

end

/-! ### What each move does -/

section Moves

variable {tokens : List Token} {index nesting : Nat} {counters : Counters} {α β : Type}

theorem run_bind (first : Counting α) (next : α → Counting β) :
    (first >>= next).run counters
      = first.run counters >>= fun done => (next done.1).run done.2 := rfl

theorem run_current (next : Token → Counting β) :
    (current tokens >>= next).run counters = (next (tokenAt tokens counters.index)).run counters :=
  rfl

theorem run_following (next : Token → Counting β) :
    (following tokens >>= next).run counters
      = (next (tokenAt tokens (counters.index + 1))).run counters := rfl

theorem run_get (next : Counters → Counting β) :
    ((get : Counting Counters) >>= next).run counters = (next counters).run counters := rfl

theorem run_modify (change : Counters → Counters) (next : Unit → Counting β) :
    ((modify change : Counting Unit) >>= next).run counters = (next ()).run (change counters) := rfl

theorem run_take (count : Nat) (next : Unit → Counting β) :
    (take count >>= next).run ⟨index, nesting⟩ = (next ()).run ⟨index + count, nesting⟩ := rfl

theorem run_ascend (next : Unit → Counting β) :
    (ascend >>= next).run ⟨index, nesting + 1⟩ = (next ()).run ⟨index, nesting⟩ := rfl

theorem run_lift (result : Except SyntaxError α) (next : α → Counting β) :
    ((result : Counting α) >>= next).run counters
      = result >>= fun a => (next a).run counters := by
  cases result <;> rfl

theorem run_unexpected (wanted : SyntaxError.Wanted) :
    (unexpected tokens wanted : Counting α).run ⟨index, nesting⟩
      = .error ((cursorAt tokens index).unexpected wanted) := by
  rw [Cursor.unexpected, current_cursorAt]
  rfl

theorem run_eat (mark : Mark) (next : Bool → Counting β) :
    (eat tokens mark >>= next).run ⟨index, nesting⟩
      = if (tokenAt tokens index).kind = .mark mark then (next true).run ⟨index + 1, nesting⟩
        else (next false).run ⟨index, nesting⟩ := by
  rw [run_bind, eat, run_current]
  split <;> rfl

/-- A nesting is entered, or it is complained of at the current token. -/
theorem run_descend (next : Unit → Counting β) :
    (descend tokens >>= next).run ⟨index, nesting⟩
      = if maxNesting < nesting + 1 then .error ⟨(tokenAt tokens index).position, .tooDeep⟩
        else (next ()).run ⟨index, nesting + 1⟩ := by
  rw [run_bind, descend, run_modify, run_get]
  dsimp only
  split <;> rfl

end Moves

/-! ### What is read -/

section Agreement

variable {tokens : List Token} {nesting middle room : Nat} {α β γ : Type}

/-- Both complain of the same, or both have read the same and come to the same place, and then the
nestings entered are so many. -/
inductive Agrees (tokens : List Token) (nesting : Nat) :
    Except SyntaxError (α × Counters) → Except SyntaxError (α × Cursor) → Prop
  | error (error : SyntaxError) : Agrees tokens nesting (.error error) (.error error)
  | ok (a : α) (index : Nat) :
      Agrees tokens nesting (.ok (a, ⟨index, nesting⟩)) (.ok (a, cursorAt tokens index))

/-- Readings that agree still do after going on, if what follows agrees. -/
theorem Agrees.bind {told : Except SyntaxError (α × Counters)}
    {reading : Except SyntaxError (α × Cursor)}
    {next : α × Counters → Except SyntaxError (β × Counters)}
    {rest : α × Cursor → Except SyntaxError (β × Cursor)} (h : Agrees tokens middle told reading)
    (hnext : ∀ a index,
      Agrees tokens nesting (next (a, ⟨index, middle⟩)) (rest (a, cursorAt tokens index))) :
    Agrees tokens nesting (told >>= next) (reading >>= rest) := by
  cases h with
  | error error => exact .error error
  | ok a index => exact hnext a index

theorem agrees_of_same {result : Except SyntaxError γ}
    {next : γ → Except SyntaxError (β × Counters)} {rest : γ → Except SyntaxError (β × Cursor)}
    (hnext : ∀ c, Agrees tokens nesting (next c) (rest c)) :
    Agrees tokens nesting (result >>= next) (result >>= rest) := by
  cases result with
  | error error => exact .error error
  | ok c => exact hnext c

theorem agrees_expect (mark : Mark) (index : Nat) {next : Unit → Counting β}
    {rest : Cursor → Except SyntaxError (β × Cursor)}
    (h : Agrees tokens nesting ((next ()).run ⟨index + 1, middle⟩)
      (rest (cursorAt tokens (index + 1)))) :
    Agrees tokens nesting ((expect tokens mark >>= next).run ⟨index, middle⟩)
      ((cursorAt tokens index).expect mark >>= rest) := by
  rw [run_bind, expect, run_eat, Cursor.expect, current_cursorAt, advance_cursorAt]
  by_cases hmark : (tokenAt tokens index).kind = .mark mark
  · rw [if_pos hmark, if_pos hmark]
    exact h
  · rw [if_neg hmark, if_neg hmark, if_neg Bool.false_ne_true, run_unexpected]
    exact .error _

def Matches (tokens : List Token) (nesting : Nat) (counting : Counting Parsed) (reader : Reader) :
    Prop :=
  ∀ index, Agrees tokens nesting (counting.run ⟨index, nesting⟩) (reader (cursorAt tokens index))

/-- A chain goes on in the same way as long as its operands are read in the same way. -/
theorem agrees_chainFrom {operand : Counting Parsed} {reader : Reader}
    (h : Matches tokens nesting operand reader) (level rounds : Nat) (left : Parsed) (index : Nat) :
    Agrees tokens nesting ((chainFrom tokens level operand rounds left).run ⟨index, nesting⟩)
      (Reader.chainFrom level reader rounds left (cursorAt tokens index)) := by
  induction rounds generalizing left index with
  | zero => exact .ok left index
  | succ rounds ih =>
      rw [chainFrom, Reader.chainFrom, run_current, current_cursorAt]
      cases BinaryOp.ofKind? level (tokenAt tokens index).kind with
      | none => exact .ok left index
      | some op =>
          dsimp only
          rw [run_take, advance_cursorAt, run_bind]
          refine (h _).bind fun right next => ?_
          dsimp only
          rw [run_current, run_lift, current_cursorAt]
          exact agrees_of_same fun height => ih _ next

theorem matches_chain {operand : Counting Parsed} {reader : Reader}
    (h : Matches tokens nesting operand reader) (level : Nat) :
    Matches tokens nesting (chain tokens level operand) (Reader.chain level reader) := by
  intro index
  rw [chain, run_bind]
  refine (h index).bind fun first next => ?_
  dsimp only
  rw [run_get, length_rest_cursorAt]
  exact agrees_chainFrom h level _ first next

/-- The levels are read in the same way, by induction from the tightest one. -/
theorem matches_tightest {operand : Counting Parsed} {reader : Reader}
    (h : Matches tokens nesting operand reader) {level levels : Nat} (hlevel : level + levels = 7) :
    Matches tokens nesting (tightest tokens operand levels) (Reader.levelReader reader level) := by
  induction levels generalizing level with
  | zero =>
      have hle : 7 ≤ level := hlevel.ge
      rw [Reader.levelReader_of_le hle]
      exact h
  | succ levels ih =>
      -- Levels are counted here from the tightest one, and by the readers from the loosest one.
      have hthis : 6 - levels = level := by omega
      rw [tightest, hthis, Reader.levelReader_of_lt (by omega)]
      exact matches_chain (ih (by omega)) level

theorem matches_atLevel {operand : Counting Parsed} {reader : Reader}
    (h : Matches tokens nesting operand reader) {level : Nat} (hlevel : level ≤ 7) :
    Matches tokens nesting (atLevel tokens operand level) (Reader.levelReader reader level) :=
  matches_tightest h (Nat.add_sub_of_le hlevel)

/-- Expressions are read in the same way if operands are. -/
theorem matches_expression {operand : Counting Parsed} {reader : Reader}
    (h : Matches tokens nesting operand reader) :
    Matches tokens nesting (expression tokens operand) (Reader.expression reader) := by
  intro index
  rw [expression, run_current]
  by_cases hfinish : (tokenAt tokens index).kind = .finish
  · rw [if_pos hfinish, run_unexpected, Reader.expression, current_cursorAt, if_pos hfinish]
    exact .error _
  · rw [if_neg hfinish, Reader.expression_eq_levelReader (by rwa [current_cursorAt])]
    exact matches_atLevel h (by omega) index

theorem agrees_leaf (expr : Expr) (index : Nat) :
    Agrees tokens nesting ((leaf expr).run ⟨index, nesting⟩)
      (.ok ((⟨expr, 1⟩ : Parsed), (cursorAt tokens index).advance)) := by
  rw [leaf, run_take, advance_cursorAt]
  exact .ok _ (index + 1)

theorem agrees_furtherArguments {argument : Counting Parsed} {reader : Reader}
    (h : Matches tokens nesting argument reader) (rounds index : Nat) :
    Agrees tokens nesting ((furtherArguments tokens argument rounds).run ⟨index, nesting⟩)
      (Reader.furtherArguments reader rounds (cursorAt tokens index)) := by
  induction rounds generalizing index with
  | zero => exact .ok [] index
  | succ rounds ih =>
      rw [furtherArguments, Reader.furtherArguments, run_eat, current_cursorAt, advance_cursorAt]
      by_cases hcomma : (tokenAt tokens index).kind = .mark .comma
      · rw [if_pos hcomma, if_pos hcomma, if_pos rfl, run_bind]
        refine (h _).bind fun first next => ?_
        dsimp only
        rw [run_bind]
        exact (ih next).bind fun others finish => .ok (first :: others) finish
      · rw [if_neg hcomma, if_neg hcomma, if_neg Bool.false_ne_true]
        exact .ok [] index

/-- The arguments of a call are read in the same way if expressions are. -/
theorem agrees_callArguments {argument : Counting Parsed} {reader : Reader}
    (h : Matches tokens nesting argument reader) (index : Nat) :
    Agrees tokens nesting ((callArguments tokens argument).run ⟨index, nesting⟩)
      (Reader.callArguments reader (cursorAt tokens index)) := by
  rw [callArguments, Reader.callArguments, run_eat, current_cursorAt, advance_cursorAt]
  by_cases hclose : (tokenAt tokens index).kind = .mark .rightParen
  · rw [if_pos hclose, if_pos hclose, if_pos rfl]
    exact .ok [] (index + 1)
  · rw [if_neg hclose, if_neg hclose, if_neg Bool.false_ne_true, run_bind]
    refine (h index).bind fun first next => ?_
    dsimp only
    rw [run_get, run_bind, length_rest_cursorAt]
    refine (agrees_furtherArguments h _ next).bind fun others finish => ?_
    dsimp only
    refine agrees_expect _ finish ?_
    exact .ok (first :: others) (finish + 1)

/-! ### Nestings -/

/-- A nesting is entered as long as there is room for one, and what is read in it ends within it. -/
theorem agrees_descend (hroom : nesting + room = maxNesting) (index : Nat)
    {next : Unit → Counting β} {rest : Reader → Except SyntaxError (β × Cursor)}
    (h : ∀ less, room = less + 1 →
      Agrees tokens nesting ((next ()).run ⟨index, nesting + 1⟩) (rest (Reader.operand less))) :
    Agrees tokens nesting ((descend tokens >>= next).run ⟨index, nesting⟩)
      (Reader.enter (Reader.deeper room) (cursorAt tokens index) >>= rest) := by
  rw [run_descend]
  cases room with
  | zero =>
      rw [if_pos (by omega), Reader.deeper, Reader.enter, current_cursorAt]
      exact .error _
  | succ less =>
      rw [if_neg (by omega)]
      exact h less rfl

def Deeper (tokens : List Token) (nesting room : Nat) (operand : Counting Parsed) : Prop :=
  ∀ less, room = less + 1 → Matches tokens (nesting + 1) operand (Reader.operand less)

section

variable {operand : Counting Parsed} (hroom : nesting + room = maxNesting)
  (h : Deeper tokens nesting room operand)
include hroom h

theorem matches_sign (op : UnaryOp) :
    Matches tokens nesting (sign tokens operand op) (Reader.sign (Reader.deeper room) op) := by
  intro index
  rw [sign, run_current]
  dsimp only
  rw [run_take, Reader.sign, advance_cursorAt]
  refine agrees_descend hroom _ fun less hless => ?_
  rw [run_bind]
  refine (h less hless _).bind fun child next => ?_
  dsimp only
  rw [run_ascend, run_lift, current_cursorAt]
  exact agrees_of_same fun height => .ok _ next

theorem matches_group :
    Matches tokens nesting (group tokens operand) (Reader.group (Reader.deeper room)) := by
  intro index
  rw [group, run_take, Reader.group, advance_cursorAt]
  refine agrees_descend hroom _ fun less hless => ?_
  rw [run_bind]
  refine (matches_expression (h less hless) _).bind fun inner next => ?_
  dsimp only
  refine agrees_expect _ next ?_
  rw [run_ascend]
  exact .ok inner (next + 1)

/-- A call is read in the same way if the operands in its arguments are. -/
theorem agrees_call (name : String) (index : Nat) :
    Agrees tokens nesting
      ((call tokens operand name (tokenAt tokens index).position).run ⟨index, nesting⟩)
      (Reader.call (Reader.deeper room) name (cursorAt tokens index)) := by
  rw [call, Reader.call, current_cursorAt]
  cases Builtin.ofName? name with
  | none => exact .error _
  | some function =>
      dsimp only
      rw [run_take, advance_cursorAt, advance_cursorAt]
      refine agrees_descend hroom _ fun less hless => ?_
      rw [run_bind]
      refine (agrees_callArguments (matches_expression (h less hless)) _).bind
        fun arguments next => ?_
      dsimp only
      rw [run_ascend, run_lift]
      exact agrees_of_same fun height => .ok _ next

theorem matches_primary :
    Matches tokens nesting (primary tokens operand) (Reader.primary (Reader.deeper room)) := by
  intro index
  rw [primary, run_current, Reader.primary, current_cursorAt, following_cursorAt]
  dsimp only
  cases (tokenAt tokens index).kind with
  | number | text | bool => exact agrees_leaf _ index
  | name name =>
      dsimp only
      rw [run_following]
      split
      · exact agrees_call hroom h name index
      · exact agrees_leaf _ index
  | finish =>
      dsimp only
      rw [run_unexpected]
      exact .error _
  | mark mark =>
      cases mark with
      | leftParen => exact matches_group hroom h index
      | _ =>
          dsimp only
          rw [run_unexpected]
          exact .error _

/-- An operand is read in the same way if the operands within it are. -/
theorem matches_unary :
    Matches tokens nesting (unary tokens operand) (Reader.operandWith (Reader.deeper room)) := by
  intro index
  rw [unary, run_current, Reader.operandWith, current_cursorAt]
  cases (tokenAt tokens index).kind with
  | mark mark =>
      cases mark with
      | minus => exact matches_sign hroom h .negate index
      | bang => exact matches_sign hroom h .not index
      | _ => exact matches_primary hroom h index
  | _ => exact matches_primary hroom h index

end

theorem matches_operandWithin (hroom : nesting + room = maxNesting) :
    Matches tokens nesting (operandWithin tokens room) (Reader.operand room) := by
  rw [Reader.operand_eq]
  induction room generalizing nesting with
  | zero =>
      -- There is no room, so it does not matter what is read in a nesting.
      exact matches_unary hroom fun less hless => by cases hless
  | succ room ih =>
      refine matches_unary hroom fun less hless => ?_
      cases hless
      rw [Reader.operand_eq]
      exact ih (by omega)

/-- Operands are read in the same way, by induction on the room for nestings. -/
theorem matches_operand (hroom : nesting + room = maxNesting) :
    Matches tokens nesting (operand tokens) (Reader.operand room) := by
  intro index
  have hless : maxNesting - nesting = room := by omega
  have hwithin := @matches_operandWithin tokens nesting room hroom index
  rwa [← hless] at hwithin ⊢

theorem deeper_operand (hroom : nesting + room = maxNesting) :
    Deeper tokens nesting room (operand tokens) := by
  intro less hless
  exact matches_operand (by omega)

/-- Where the counters are the same, it is read in only one way what the readers read. -/
theorem Agrees.unique {told other : Except SyntaxError (α × Counters)}
    {reading : Except SyntaxError (α × Cursor)} (h : Agrees tokens nesting told reading)
    (hother : Agrees tokens nesting other reading) : told = other := by
  cases h with
  | error error =>
      cases hother
      rfl
  | ok a index =>
      generalize hplace : cursorAt tokens index = place at hother
      cases hother with
      | ok _ next =>
          rw [index_of_cursorAt hplace]

/-- Within the limit, operands are read by reading operands. -/
theorem operand_eq_unary (hnesting : nesting ≤ maxNesting) (index : Nat) :
    (operand tokens).run ⟨index, nesting⟩
      = (unary tokens (operand tokens)).run ⟨index, nesting⟩ := by
  obtain ⟨room, hroom⟩ := Nat.exists_eq_add_of_le hnesting
  have hdeeper : Deeper tokens nesting room (operand tokens) := deeper_operand hroom.symm
  have hunary := matches_unary hroom.symm hdeeper index
  rw [← Reader.operand_eq] at hunary
  exact (matches_operand hroom.symm index).unique hunary

end Agreement

/-! ### What the counters say afterwards -/

section Bookkeeping

variable {tokens : List Token} {finish : Token} {counters : Counters} {room : Nat}

/-- The functions that read an expression or part of one, each with the reader that does the same
within this room for nesting. A call is only read from its name in front of a parenthesis. -/
inductive Part (tokens : List Token) (index room : Nat) : Counting Parsed → Reader → Prop
  | expression :
      Part tokens index room (expression tokens (operand tokens))
        (Reader.expression (Reader.operand room))
  | level (level : Nat) (hlevel : 1 ≤ level ∧ level ≤ 6) :
      Part tokens index room (atLevel tokens (operand tokens) level)
        (Reader.levelReader (Reader.operand room) level)
  | unary : Part tokens index room (unary tokens (operand tokens)) (Reader.operand room)
  | primary :
      Part tokens index room (primary tokens (operand tokens)) (Reader.primary (Reader.deeper room))
  | call (name : String) (hname : (tokenAt tokens index).kind = .name name)
      (hparen : (tokenAt tokens (index + 1)).kind = .mark .leftParen) :
      Part tokens index room (call tokens (operand tokens) name (tokenAt tokens index).position)
        (Reader.call (Reader.deeper room) name)

/-- Every function that reads does what its reader does. -/
theorem Part.agrees {counting : Counting Parsed} {reader : Reader} {index nesting : Nat}
    (h : Part tokens index room counting reader) (hroom : nesting + room = maxNesting) :
    Agrees tokens nesting (counting.run ⟨index, nesting⟩) (reader (cursorAt tokens index)) := by
  have hdeeper : Deeper tokens nesting room (operand tokens) := deeper_operand hroom
  cases h with
  | expression => exact matches_expression (matches_operand hroom) index
  | level level hlevel =>
      have hle : level ≤ 7 := Nat.le_succ_of_le hlevel.2
      exact matches_atLevel (matches_operand hroom) hle index
  | unary =>
      rw [Reader.operand_eq]
      exact matches_unary hroom hdeeper index
  | primary => exact matches_primary hroom hdeeper index
  | call name => exact agrees_call hroom hdeeper name index

/-- Every reader that succeeds has read an expression of a level. -/
theorem Part.took {counting : Counting Parsed} {reader : Reader} {index : Nat} {parsed : Parsed}
    {after : Cursor} (h : Part tokens index room counting reader)
    (hended : (cursorAt tokens index).IsEnded)
    (hread : reader (cursorAt tokens index) = .ok (parsed, after)) :
    ∃ level, Reader.Took room level (cursorAt tokens index) parsed after := by
  have hdeeper : ∀ less, room = less + 1 → Reader.Sound less 7 (Reader.operand less) :=
    fun less _ => Reader.operand_sound less
  cases h with
  | expression => exact ⟨1, Reader.expression_sound (Reader.operand_sound room) hended hread⟩
  | level level hlevel =>
      have hle : level ≤ 7 := Nat.le_succ_of_le hlevel.2
      exact ⟨level, Reader.levelReader_sound (Reader.operand_sound room) level hle hended hread⟩
  | unary => exact ⟨7, Reader.operand_sound room hended hread⟩
  | primary => exact ⟨8, Reader.primary_sound hdeeper hended hread⟩
  | call name hname hparen =>
      rw [← current_cursorAt] at hname
      rw [← following_cursorAt] at hparen
      exact ⟨8, Reader.call_sound hdeeper hended hname hparen hread⟩

theorem isEnded_cursorAt (hfinish : finish.kind = .finish)
    (htokens : ∀ token ∈ tokens, token.kind ≠ .finish) {index : Nat}
    (hindex : index ≤ tokens.length) : (cursorAt (tokens ++ [finish]) index).IsEnded := by
  have hlast : (cursorAt (tokens ++ [finish]) index).last = finish := by simp [cursorAt]
  refine ⟨tokens.drop index, ?_, ?_, fun token hmem => htokens token (List.mem_of_mem_drop hmem)⟩
  · rw [hlast]
    exact List.drop_append_of_le_length hindex
  · rw [hlast]
    exact hfinish

/-- What has been read are tokens, and the end mark is still there. -/
theorem index_lt_of_took {level index next : Nat} {parsed : Parsed}
    (h : Reader.Took room level (cursorAt tokens index) parsed (cursorAt tokens next)) :
    index < next ∧ next < tokens.length := by
  -- A phrase opens with a token, and what is left behind it closes with the end mark.
  obtain ⟨kinds, nesting, hreads, -, hderives⟩ := h.derives
  obtain ⟨first, rest, rfl, -⟩ := hderives.opens
  have htaken := hreads.spans.length_rest
  obtain ⟨body, hrest, -⟩ := hreads.ended
  have hleft := congrArg List.length hrest
  rw [length_rest_cursorAt, length_rest_cursorAt, List.length_cons] at htaken
  rw [length_rest_cursorAt, List.length_append, List.length_singleton] at hleft
  omega

/-- **The counters are kept.** From any place among tokens that their only end mark closes, and
within any nesting that is allowed, each of the functions that read expressions does what its reader
does, and the operands within an operand are read as that is. If it succeeds, the nestings counted
are those from before, at least one token was taken and not the end mark, and the height that is
returned is that of the tree, which is within the limit. So to evaluate the tree, to print it and to
give it back takes no more calls within each other than that. -/
theorem counters_are_kept (hfinish : finish.kind = .finish)
    (htokens : ∀ token ∈ tokens, token.kind ≠ .finish) (hindex : counters.index ≤ tokens.length)
    (hnesting : counters.nesting ≤ maxNesting) {counting : Counting Parsed} {reader : Reader}
    (h : Part (tokens ++ [finish]) counters.index (maxNesting - counters.nesting) counting reader) :
    Agrees (tokens ++ [finish]) counters.nesting (counting.run counters)
        (reader (cursorAt (tokens ++ [finish]) counters.index))
      ∧ (operand (tokens ++ [finish])).run counters
        = (unary (tokens ++ [finish]) (operand (tokens ++ [finish]))).run counters
      ∧ ∀ parsed after, counting.run counters = .ok (parsed, after) →
        after.nesting = counters.nesting
          ∧ counters.index < after.index ∧ after.index ≤ tokens.length
          ∧ parsed.height = parsed.expr.height ∧ parsed.expr.height ≤ maxHeight
          ∧ (∀ environment, parsed.expr.within (Layer.eval environment) maxHeight
            = some (parsed.expr.eval environment))
          ∧ parsed.expr.within Layer.renderAt maxHeight
            = some (fun context => parsed.expr.renderAt context)
          ∧ parsed.expr.within Layer.released maxHeight = some parsed.expr.released := by
  obtain ⟨index, nesting⟩ := counters
  have hagrees := h.agrees (Nat.add_sub_of_le hnesting)
  have hended := isEnded_cursorAt hfinish htokens hindex
  refine ⟨hagrees, operand_eq_unary hnesting index, fun parsed after hrun => ?_⟩
  dsimp only at hagrees hrun
  rw [hrun] at hagrees
  generalize hreading : reader (cursorAt (tokens ++ [finish]) index) = reading at hagrees
  cases hagrees with
  | ok parsed next =>
      obtain ⟨level, htook⟩ := h.took hended hreading
      obtain ⟨hlt, hle⟩ := index_lt_of_took htook
      rw [List.length_append, List.length_singleton] at hle
      have hheight := htook.height_le
      exact ⟨rfl, hlt, Nat.le_of_lt_succ hle, htook.height_eq, hheight,
        fun environment => (Expr.recurses_eval environment).within_eq_some hheight,
        Expr.recurses_renderAt.within_eq_some hheight,
        Expr.recurses_released.within_eq_some hheight⟩

/-- From the name of a call in sixty-two nestings, two more can be entered. In sixty-three, the sign
of its first argument is one too many. -/
theorem counters_are_kept_last_nestings :
    let tokens : List Token := [⟨.mark .leftParen, 0⟩, ⟨.mark .bang, 1⟩, ⟨.name "str", 2⟩,
      ⟨.mark .leftParen, 5⟩, ⟨.mark .minus, 6⟩, ⟨.name "x", 7⟩, ⟨.mark .comma, 8⟩, ⟨.bool true, 10⟩,
      ⟨.mark .rightParen, 14⟩, ⟨.mark .equal, 16⟩, ⟨.name "y", 19⟩, ⟨.mark .rightParen, 20⟩]
    let all := tokens ++ [⟨.finish, 21⟩]
    let expr : Expr := .call .str [.unary .negate (.var "x"), .literal (.bool true)]
    let counting := call all (operand all) "str" 2
    let reader := Reader.call (Reader.deeper 2) "str"
    (∀ token ∈ tokens, token.kind ≠ .finish) ∧ Part all 2 2 counting reader
      ∧ counting.run ⟨2, 62⟩ = .ok (⟨expr, 3⟩, ⟨9, 62⟩)
      ∧ counting.run ⟨2, 63⟩ = .error ⟨7, .tooDeep⟩
      ∧ Agrees all 62 (counting.run ⟨2, 62⟩) (reader (cursorAt all 2))
      ∧ (operand all).run ⟨2, 62⟩ = (unary all (operand all)).run ⟨2, 62⟩
      ∧ 2 < 9 ∧ 9 ≤ tokens.length ∧ 3 = expr.height ∧ expr.height ≤ maxHeight
      ∧ expr.within (Layer.eval .empty) maxHeight = some (expr.eval .empty)
      ∧ expr.within Layer.renderAt maxHeight = some (fun context => expr.renderAt context)
      ∧ expr.within Layer.released maxHeight = some expr.released := by
  intro tokens all expr counting reader
  have htokens : ∀ token ∈ tokens, token.kind ≠ .finish := by decide
  have hpart : Part all 2 2 counting reader := .call "str" rfl rfl
  have hrun : counting.run ⟨2, 62⟩ = .ok (⟨expr, 3⟩, ⟨9, 62⟩) := rfl
  have hfull : counting.run ⟨2, 63⟩ = .error ⟨7, .tooDeep⟩ := rfl
  obtain ⟨hagrees, hoperand, hkept⟩ := @counters_are_kept tokens ⟨.finish, 21⟩ ⟨2, 62⟩ rfl htokens
    (by decide) (by decide) counting reader hpart
  obtain ⟨-, hlt, hle, hheight, hlimit, heval, hrender, hreleased⟩ := hkept _ _ hrun
  exact ⟨htokens, hpart, hrun, hfull, hagrees, hoperand, hlt, hle, hheight, hlimit, heval .empty,
    hrender, hreleased⟩

end Bookkeeping

end Counters

end Flowchart
