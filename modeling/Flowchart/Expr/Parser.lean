import Flowchart.Expr
import Flowchart.Token.Cursor

/-!
From tokens to expressions and statements. Operators between operands form six levels, each a chain
over the next tighter one that leans to the left; the operand of the tightest level is read by
`operand`, which alone descends. Two limits hold: nothing nests deeper than `maxNesting` signs,
parentheses and calls, which is what the descent is bounded by, and no tree is taller than
`maxHeight`.
-/

namespace Flowchart

def maxHeight : Nat := 256

/-- The greatest nesting of operators before an operand, parentheses and calls. -/
def maxNesting : Nat := 64

def BinaryOp.ofMark? : Mark → Option BinaryOp
  | .either => some or
  | .both => some and
  | .equal => some equal
  | .notEqual => some notEqual
  | .less => some less
  | .lessEqual => some lessEqual
  | .greater => some greater
  | .greaterEqual => some greaterEqual
  | .plus => some add
  | .minus => some subtract
  | .star => some multiply
  | .slash => some divide
  | .percent => some modulo
  | _ => none

def BinaryOp.ofKind? (level : Nat) : Token.Kind → Option BinaryOp
  | .mark mark => (ofMark? mark).filter (·.precedence = level)
  | _ => none

structure Parsed where
  expr : Expr
  height : Nat

abbrev Reader := Cursor → Except SyntaxError (Parsed × Cursor)

namespace Reader

/-- The height, if it is allowed; a tree that is too tall is blamed on the given position. -/
def allowedHeight (height position : Nat) : Except SyntaxError Nat :=
  if height ≤ maxHeight then .ok height else .error ⟨position, .tooDeep⟩

/-- Goes on with a chain: as long as an operator of the level follows, its right operand is read and
joined to what is there. A chain has no more operators than there are tokens left, which `tokens`
counts. -/
def chainFrom (level : Nat) (operand : Reader) (tokens : Nat) (left : Parsed) (cursor : Cursor) :
    Except SyntaxError (Parsed × Cursor) :=
  match tokens with
  | 0 => .ok (left, cursor)
  | tokens + 1 =>
    match BinaryOp.ofKind? level cursor.current.kind with
    | none => .ok (left, cursor)
    | some op => do
      let (right, after) ← operand cursor.advance
      let height ← allowedHeight (max left.height right.height + 1) after.current.position
      chainFrom level operand tokens ⟨.binary op left.expr right.expr, height⟩ after

def chain (level : Nat) (operand : Reader) : Reader := fun cursor => do
  let (first, after) ← operand cursor
  chainFrom level operand after.rest.length first after

def expression (operand : Reader) : Reader := fun cursor =>
  if cursor.current.kind = .finish then .error (cursor.unexpected .expression)
  else chain 1 (chain 2 (chain 3 (chain 4 (chain 5 (chain 6 operand))))) cursor

def enter (deeper : Option Reader) (cursor : Cursor) : Except SyntaxError Reader :=
  match deeper with
  | some reader => .ok reader
  | none => .error ⟨cursor.current.position, .tooDeep⟩

def sign (deeper : Option Reader) (op : UnaryOp) : Reader := fun cursor => do
  let operand ← enter deeper cursor.advance
  let (child, after) ← operand cursor.advance
  let height ← allowedHeight (child.height + 1) cursor.current.position
  .ok (⟨.unary op child.expr, height⟩, after)

/-- Further arguments of a call, each after a comma; `tokens` counts the tokens left. -/
def furtherArguments (argument : Reader) (tokens : Nat) (cursor : Cursor) :
    Except SyntaxError (List Parsed × Cursor) :=
  match tokens with
  | 0 => .ok ([], cursor)
  | tokens + 1 =>
    if cursor.current.kind = .mark .comma then do
      let (first, after) ← argument cursor.advance
      let (others, finish) ← furtherArguments argument tokens after
      .ok (first :: others, finish)
    else .ok ([], cursor)

def callArguments (argument : Reader) (cursor : Cursor) :
    Except SyntaxError (List Parsed × Cursor) :=
  if cursor.current.kind = .mark .rightParen then .ok ([], cursor.advance)
  else do
    let (first, after) ← argument cursor
    let (others, finish) ← furtherArguments argument after.rest.length after
    let closed ← finish.expect .rightParen
    .ok (first :: others, closed)

def call (deeper : Option Reader) (name : String) : Reader := fun cursor =>
  match Builtin.ofName? name with
  | none => .error ⟨cursor.current.position, .unknownFunction name⟩
  | some function => do
    let inner := cursor.advance.advance
    let operand ← enter deeper inner
    let (arguments, after) ← callArguments (expression operand) inner
    let deepest := (arguments.map Parsed.height).foldl max 0
    let height ← allowedHeight (deepest + 1) cursor.current.position
    .ok (⟨.call function (arguments.map Parsed.expr), height⟩, after)

def group (deeper : Option Reader) : Reader := fun cursor => do
  let operand ← enter deeper cursor.advance
  let (inner, after) ← expression operand cursor.advance
  let closed ← after.expect .rightParen
  .ok (inner, closed)

def primary (deeper : Option Reader) : Reader := fun cursor =>
  match cursor.current.kind with
  | .number x => .ok (⟨.literal (.number x), 1⟩, cursor.advance)
  | .text s => .ok (⟨.literal (.text s), 1⟩, cursor.advance)
  | .bool b => .ok (⟨.literal (.bool b), 1⟩, cursor.advance)
  | .name name =>
    if cursor.following.kind = .mark .leftParen then call deeper name cursor
    else .ok (⟨.var name, 1⟩, cursor.advance)
  | .mark .leftParen => group deeper cursor
  | _ => .error (cursor.unexpected .expression)

def operandWith (deeper : Option Reader) : Reader := fun cursor =>
  match cursor.current.kind with
  | .mark .minus => sign deeper .negate cursor
  | .mark .bang => sign deeper .not cursor
  | _ => primary deeper cursor

/-- An operand of the tightest level within which `room` further nestings are allowed. -/
def operand : Nat → Reader
  | 0 => operandWith none
  | room + 1 => operandWith (some (operand room))

def outermost : Reader := expression (operand maxNesting)

end Reader

def Expr.ofTokens (tokens : List Token) : Except SyntaxError Expr := do
  let (parsed, after) ← Reader.outermost (.ofTokens tokens)
  after.expectFinish
  .ok parsed.expr

def Expr.parse (source : String) : Except SyntaxError Expr := do
  Expr.ofTokens (← Token.scan source)

namespace Statement

def ofTokens (tokens : List Token) : Except SyntaxError Statement := do
  let cursor := Cursor.ofTokens tokens
  match cursor.current.kind, cursor.following.kind with
  | .name target, .mark .assign =>
    let (value, after) ← Reader.outermost cursor.advance.advance
    after.expectFinish
    .ok (.assign target value.expr)
  | _, _ =>
    let (parsed, after) ← Reader.outermost cursor
    after.expectFinish
    .ok (.eval parsed.expr)

end Statement

end Flowchart
