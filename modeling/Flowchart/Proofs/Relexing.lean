import Flowchart.Proofs.Lexemes
import Flowchart.Proofs.NumberText
import Flowchart.Proofs.Printing

/-!
# Printed text and its tokens

The printed text of an expression is scanned as the tokens it is printed as. No lexeme of it goes on
into the next one: after a name, a number or a closed text stands a blank, a comma, a parenthesis, a
semicolon or nothing, and an exclamation mark never stands before an equals sign.
-/

namespace Flowchart

open Token (Kind)

namespace Token

/-- Wherever they stand in a source, these characters are scanned as tokens of these kinds. -/
def ScansTo (cs : List Char) (kinds : List Kind) : Prop :=
  ∀ position, ∃ tokens, scanFrom position cs = .ok tokens ∧ tokens.map Token.kind = kinds

variable {c : Char} {cs : List Char} {kinds : List Kind}

theorem scansTo_nil : ScansTo [] [.finish] := by
  intro position
  rw [scanFrom_eq]
  exact ⟨_, rfl, rfl⟩

theorem ScansTo.blank (h : ScansTo cs kinds) : ScansTo (' ' :: cs) kinds := by
  intro position
  rw [scanFrom_blank (by decide)]
  exact h _

/-- A lexeme before characters that are scanned is scanned with them. -/
theorem ScansTo.lexeme {lex : Lexeme} (h : ScansTo lex.rest kinds)
    (hblank : Text.isBlank c = false) (hlex : ∀ position, lexeme position c cs = .ok lex) :
    ScansTo (c :: cs) (lex.kind :: kinds) := by
  intro position
  obtain ⟨tokens, hscan, hkinds⟩ := h (position + width lex.spelling)
  refine ⟨⟨lex.kind, position⟩ :: tokens, ?_, by rw [List.map_cons, hkinds]⟩
  rw [scanFrom_lexeme hblank (hlex position), hscan]
  rfl

def Breaks (tail : List Char) : Prop := ∀ c ∈ tail.head?, c ∈ [' ', '(', ')', ',', ';']

theorem Breaks.endsNumber (h : Breaks cs) : Number.EndsNumber cs := by
  intro c hhead
  have hmem := h c hhead
  simp only [List.mem_cons, List.not_mem_nil, or_false] at hmem
  rcases hmem with rfl | rfl | rfl | rfl | rfl <;> decide

theorem Breaks.not_isNamePart (h : Breaks cs) : ∀ c ∈ cs.head?, Text.isNamePart c = false := by
  intro c hhead
  have hmem := h c hhead
  simp only [List.mem_cons, List.not_mem_nil, or_false] at hmem
  rcases hmem with rfl | rfl | rfl | rfl | rfl <;> decide

/-! ### Marks -/

theorem ScansTo.single {mark : Mark} (hmark : Mark.single? c = some mark) (h : ScansTo cs kinds) :
    ScansTo (c :: cs) (.mark mark :: kinds) := by
  have hblank : Text.isBlank c = false := by
    unfold Mark.single? at hmark
    split at hmark <;> first | rfl | cases hmark
  have hlexeme : ∀ position, Token.lexeme position c cs = .ok ⟨.mark mark, [c], cs⟩ := by
    intro position
    simp only [Token.lexeme, hmark]
  exact ScansTo.lexeme h hblank hlexeme

/-- A mark with a blank behind it is scanned as that mark. -/
theorem ScansTo.mark (mark : Mark) (h : ScansTo (' ' :: cs) kinds) :
    ScansTo (mark.text.toList ++ ' ' :: cs) (.mark mark :: kinds) := by
  cases mark <;>
    exact @ScansTo.lexeme _ _ _ ⟨.mark _, _, ' ' :: cs⟩ h (by decide) fun _ => rfl

theorem ScansTo.bang (h : ScansTo cs kinds) (hequal : ∀ c ∈ cs.head?, c ≠ '=') :
    ScansTo ('!' :: cs) (.mark .bang :: kinds) := by
  have hmarks : Mark.beforeEqual? '!' = some (.bang, .notEqual) := rfl
  exact @ScansTo.lexeme _ _ _ ⟨.mark .bang, ['!'], cs⟩ h (by decide) (lexeme_of_alone hmarks hequal)

/-! ### Words -/

def IsWord (s : String) : Prop :=
  ∃ c rest, s.toList = c :: rest ∧ Text.isBlank c = false ∧ Text.isNameStart c
    ∧ rest.all Text.isNamePart

/-- A name that a source can hold: a word that is no truth value. -/
def IsName (s : String) : Prop := IsWord s ∧ Kind.ofWord s = .name s

theorem isBlank_eq_false_of_isDigit (hdigit : c.isDigit) : Text.isBlank c = false := by
  rw [Char.isDigit_iff_toNat] at hdigit
  simp only [Char.reduceToNat] at hdigit
  have hspace : c ≠ ' ' := by
    rintro rfl
    simp at hdigit
  have htable : Text.blankRanges.contains c = false := by
    simp [Text.CodeRanges.contains, Text.blankRanges]
    omega
  have hcontrol : ¬ c.toNat ≤ 13 := by omega
  simp [Text.isBlank, hspace, htable, hcontrol]

theorem word_append {rest : List Char} (hparts : rest.all Text.isNamePart)
    (hend : ∀ d ∈ cs.head?, Text.isNamePart d = false) :
    word c (rest ++ cs) = ⟨.ofWord (String.ofList (c :: rest)), c :: rest, cs⟩ := by
  have htake : cs.takeWhile Text.isNamePart = [] := by
    cases cs with
    | nil => rfl
    | cons d cs => simp [hend d rfl]
  have hdrop : cs.dropWhile Text.isNamePart = cs := by
    cases cs with
    | nil => rfl
    | cons d cs => simp [hend d rfl]
  rw [List.all_eq_true] at hparts
  rw [word, List.takeWhile_append_of_pos hparts, List.dropWhile_append_of_pos hparts, htake, hdrop,
    List.append_nil]

theorem scanFrom_word {s : String} (hword : IsWord s)
    (hend : ∀ d ∈ cs.head?, Text.isNamePart d = false) (position : Nat) :
    scanFrom position (s.toList ++ cs)
      = (scanFrom (position + width s.toList) cs).map (⟨Kind.ofWord s, position⟩ :: ·) := by
  obtain ⟨c, rest, hs, hblank, hstart, hparts⟩ := hword
  have hlexeme : lexeme position c (rest ++ cs) = .ok ⟨Kind.ofWord s, c :: rest, cs⟩ := by
    rw [lexeme_of_isNameStart hstart, word_append hparts hend, ← hs, String.ofList_toList]
  rw [hs, List.cons_append, scanFrom_lexeme hblank hlexeme]

/-- A word is scanned as itself, where no name goes on from it. -/
theorem ScansTo.word {s : String} (hword : IsWord s) (hbreaks : Breaks cs) (h : ScansTo cs kinds) :
    ScansTo (s.toList ++ cs) (Kind.ofWord s :: kinds) := by
  intro position
  obtain ⟨tokens, hscan, hkinds⟩ := h (position + width s.toList)
  refine ⟨⟨Kind.ofWord s, position⟩ :: tokens, ?_, by rw [List.map_cons, hkinds]⟩
  rw [scanFrom_word hword hbreaks.not_isNamePart, hscan]
  rfl

/-! ### Numbers -/

/-- A number is scanned as itself, where no digits go on from it. -/
theorem ScansTo.number {x : Float} (hx : Number.IsNumeral x) (hbreaks : Breaks cs)
    (h : ScansTo cs kinds) :
    ScansTo ((Value.displayNumber x).toList ++ cs) (.number x :: kinds) := by
  obtain ⟨c, rest, hdisplay, hdigit⟩ := Number.startsWithDigit_displayNumber hx
  have hnumeral := Number.numeral_displayNumber hx hbreaks.endsNumber
  have hlexeme : ∀ position, Token.lexeme position c (rest ++ cs)
      = .ok ⟨.number x, (Value.displayNumber x).toList, cs⟩ := by
    intro position
    rw [lexeme_of_number (by rw [hdigit, Bool.true_or]), ← List.cons_append, ← hdisplay, hnumeral]
  rw [hdisplay, List.cons_append]
  exact ScansTo.lexeme h (isBlank_eq_false_of_isDigit hdigit) hlexeme

/-! ### Texts -/

def escapes : List (List Char) := [['\\', '"'], ['\\', '\\'], ['\\', 'n'], ['\\', 't']]

/-- A character that stands for itself between double quotes or is written as an escape that is read
back. -/
def IsPlain (c : Char) : Prop := Text.quotedChar c = [c] ∨ Text.quotedChar c ∈ escapes

instance : DecidablePred IsPlain := fun c =>
  inferInstanceAs (Decidable (Text.quotedChar c = [c] ∨ Text.quotedChar c ∈ escapes))

theorem quotedChar_of_isPlain (h : IsPlain c) :
    (c ≠ '"' ∧ c ≠ '\\' ∧ Text.quotedChar c = [c])
      ∨ ∃ letter, Text.quotedChar c = ['\\', letter] ∧ escaped? letter = some c := by
  unfold IsPlain at h
  unfold Text.quotedChar at *
  split at h
  · exact .inr ⟨'"', rfl, rfl⟩
  · exact .inr ⟨'\\', rfl, rfl⟩
  · exact .inr ⟨'n', rfl, rfl⟩
  · exact absurd h (by decide)
  · exact .inr ⟨'t', rfl, rfl⟩
  · exact absurd h (by decide)
  · rename_i hquote hbackslash _ _ _ _
    split at h
    · rename_i hvisible
      exact .inl ⟨hquote, hbackslash, if_pos hvisible⟩
    · simp [escapes] at h

/-- Plain characters are printed as a text is spelled. -/
theorem quotes_of_isPlain {content : List Char} (hplain : ∀ c ∈ content, IsPlain c) :
    Quotes '"' content (content.flatMap Text.quotedChar) := by
  induction content with
  | nil => exact .nil
  | cons c content ih =>
      obtain ⟨hc, hcontent⟩ := List.forall_mem_cons.mp hplain
      rw [List.flatMap_cons]
      rcases quotedChar_of_isPlain hc with ⟨hquote, hbackslash, hself⟩ | ⟨letter, hescape, hletter⟩
      · rw [hself]
        exact .plain hquote hbackslash (ih hcontent)
      · rw [hescape]
        exact .escape (mem_escapeLetters_iff.mpr hletter) (ih hcontent)

/-- A quoted text is scanned as itself, if its characters are plain. -/
theorem ScansTo.text {s : String} (hplain : ∀ c ∈ s.toList, IsPlain c) (h : ScansTo cs kinds) :
    ScansTo ((Text.quoted s).toList ++ cs) (.text s :: kinds) := by
  have hquoted : (Text.quoted s).toList ++ cs
      = '"' :: (s.toList.flatMap Text.quotedChar ++ '"' :: cs) := by
    simp [Text.quoted]
  have hlexeme : ∀ position, Token.lexeme position '"' (s.toList.flatMap Text.quotedChar ++ '"' :: cs)
      = .ok ⟨.text s, '"' :: (s.toList.flatMap Text.quotedChar ++ ['"']), cs⟩ := by
    intro position
    rw [lexeme_of_quote (.inl rfl), quotation_of_quotes (by decide) (quotes_of_isPlain hplain)]
    simp [Except.map]
  rw [hquoted]
  exact ScansTo.lexeme h (by decide) hlexeme

/-! ### Printed phrases -/

/-- A text that is scanned as tokens of these kinds wherever no lexeme goes on from it, and that does
not make another mark of an exclamation mark before it. -/
structure Relexes (text : String) (kinds : List Kind) : Prop where
  head_ne_equal : ∃ c, text.toList.head? = some c ∧ c ≠ '='
  scans : ∀ ⦃tail more⦄, Breaks tail → ScansTo tail more →
    ScansTo (text.toList ++ tail) (kinds ++ more)

theorem relexes_word {s : String} (hword : IsWord s) : Relexes s [Kind.ofWord s] := by
  refine ⟨?_, fun tail more hbreaks h => h.word hword hbreaks⟩
  obtain ⟨c, rest, hs, -, hstart, -⟩ := hword
  refine ⟨c, by rw [hs, List.head?_cons], ?_⟩
  rintro rfl
  exact absurd hstart (by decide)

theorem relexes_name {s : String} (hname : IsName s) : Relexes s [.name s] :=
  hname.2 ▸ relexes_word hname.1

theorem relexes_number {x : Float} (hx : Number.IsNumeral x) :
    Relexes (Value.displayNumber x) [.number x] := by
  refine ⟨?_, fun tail more hbreaks h => h.number hx hbreaks⟩
  obtain ⟨c, rest, hdisplay, hdigit⟩ := Number.startsWithDigit_displayNumber hx
  refine ⟨c, by rw [hdisplay, List.head?_cons], ?_⟩
  rintro rfl
  exact absurd hdigit (by decide)

theorem relexes_text {s : String} (hplain : ∀ c ∈ s.toList, IsPlain c) :
    Relexes (Text.quoted s) [.text s] :=
  ⟨⟨'"', by simp [Text.quoted], by decide⟩, fun _ _ _ h => h.text hplain⟩

/-- Parentheses may be put around what is scanned again. -/
theorem Relexes.parenthesized {text : String} {phrase : Grammar.Phrase}
    (h : Relexes text phrase.kinds) (needed : Bool) :
    Relexes (Flowchart.parenthesized needed text) (phrase.wrapped needed).kinds := by
  cases needed with
  | false => exact h
  | true =>
      refine ⟨⟨'(', by simp [Flowchart.parenthesized], by decide⟩, fun tail more _ hmore => ?_⟩
      have hclosed : ScansTo (')' :: tail) (.mark .rightParen :: more) := .single rfl hmore
      have hopen : ScansTo ('(' :: (text.toList ++ ')' :: tail))
          (.mark .leftParen :: (phrase.kinds ++ .mark .rightParen :: more)) :=
        .single rfl (h.scans (by simp [Breaks]) hclosed)
      simpa [Flowchart.parenthesized, Grammar.Phrase.wrapped] using hopen

theorem Relexes.sign {text : String} (h : Relexes text kinds) (op : UnaryOp) :
    Relexes (op.symbol ++ text) (.mark op.mark :: kinds) := by
  obtain ⟨c, htext, hequal⟩ := h.head_ne_equal
  cases op with
  | negate =>
      refine ⟨⟨'-', by simp [UnaryOp.symbol], by decide⟩, fun tail more hbreaks hmore => ?_⟩
      simpa [UnaryOp.symbol, UnaryOp.mark] using
        @ScansTo.single '-' _ _ .minus rfl (h.scans hbreaks hmore)
  | not =>
      refine ⟨⟨'!', by simp [UnaryOp.symbol], by decide⟩, fun tail more hbreaks hmore => ?_⟩
      simpa [UnaryOp.symbol, UnaryOp.mark] using
        (h.scans hbreaks hmore).bang (by simp [htext, hequal])

/-- Two operands with an operator between them are scanned again. -/
theorem Relexes.join {left right : String} {before after : List Kind} (hleft : Relexes left before)
    (hright : Relexes right after) (op : BinaryOp) :
    Relexes (left ++ " " ++ op.symbol ++ " " ++ right) (before ++ .mark op.mark :: after) := by
  obtain ⟨c, htext, hequal⟩ := hleft.head_ne_equal
  have hsymbol : op.symbol = op.mark.text := by cases op <;> rfl
  refine ⟨⟨c, by simp [htext], hequal⟩, fun tail more hbreaks hmore => ?_⟩
  have hmark := (ScansTo.mark op.mark (hright.scans hbreaks hmore).blank).blank
  have hscans := hleft.scans (by simp [Breaks]) hmark
  simpa [hsymbol] using hscans

/-- A text of several others with a mark and a blank between each two. -/
theorem scansTo_separated {α : Type} {mark : Mark} (hmark : Mark.single? c = some mark)
    (hbreak : Breaks [c]) {items : List α} {text : α → String} {kindsOf : α → List Kind}
    (h : ∀ item ∈ items, Relexes (text item) (kindsOf item)) {tail : List Char} {more : List Kind}
    (htail : Breaks tail) (hmore : ScansTo tail more) :
    ScansTo (items.flatMap (fun item => c :: ' ' :: (text item).toList) ++ tail)
        (items.flatMap (fun item => .mark mark :: kindsOf item) ++ more)
      ∧ Breaks (items.flatMap (fun item => c :: ' ' :: (text item).toList) ++ tail) := by
  induction items with
  | nil => exact ⟨hmore, htail⟩
  | cons first rest ih =>
      obtain ⟨hfirst, hrest⟩ := List.forall_mem_cons.mp h
      obtain ⟨hscans, hbreaks⟩ := ih hrest
      refine ⟨?_, fun d hhead => hbreak d hhead⟩
      have hlater := ScansTo.single hmark (hfirst.scans hbreaks hscans).blank
      simpa [List.append_assoc] using hlater

theorem scansTo_intercalate {α : Type} {mark : Mark} (hmark : Mark.single? c = some mark)
    (hbreak : Breaks [c]) {items : List α} {text : α → String} {kindsOf : α → List Kind}
    (h : ∀ item ∈ items, Relexes (text item) (kindsOf item)) {tail : List Char} {more : List Kind}
    (htail : Breaks tail) (hmore : ScansTo tail more) :
    ScansTo (((String.ofList [c, ' ']).intercalate (items.map text)).toList ++ tail)
      ([Kind.mark mark].intercalate (items.map kindsOf) ++ more) := by
  cases items with
  | nil => simpa using hmore
  | cons first rest =>
      obtain ⟨hfirst, hrest⟩ := List.forall_mem_cons.mp h
      obtain ⟨hscans, hbreaks⟩ := scansTo_separated hmark hbreak hrest htail hmore
      have hall := hfirst.scans hbreaks hscans
      rw [String.toList_intercalate]
      simp only [List.map_cons, Grammar.intercalate_cons, List.map_map, List.flatMap_map]
      simpa [List.append_assoc] using hall

end Token

/-! ### Expressions and statements -/

open Token Grammar

/-- What a value's text is read back for: a number that a source can hold, or a text of plain
characters. -/
def Value.ReadsBack : Value → Prop
  | number x => Number.IsNumeral x
  | text s => ∀ c ∈ s.toList, IsPlain c
  | bool _ => True

/-- A literal that is read back is scanned as itself. -/
theorem relexes_literal {value : Value} (h : value.ReadsBack) :
    Relexes value.literal [value.kind] := by
  cases value with
  | number x => exact relexes_number h
  | text s => exact relexes_text h
  | bool b =>
      have hword : ∀ b, IsWord (Value.bool b).display
          ∧ Kind.ofWord (Value.bool b).display = .bool b := by
        intro b
        cases b with
        | false => exact ⟨⟨'f', ['a', 'l', 's', 'e'], by decide⟩, rfl⟩
        | true => exact ⟨⟨'t', ['r', 'u', 'e'], by decide⟩, rfl⟩
      obtain ⟨hspelling, hkind⟩ := hword b
      have hrelexes := relexes_word hspelling
      rw [hkind] at hrelexes
      exact hrelexes

theorem isName_builtin (function : Builtin) : IsName function.name := by
  cases function with
  | print => exact ⟨⟨'p', ['r', 'i', 'n', 't'], by decide⟩, rfl⟩
  | str => exact ⟨⟨'s', ['t', 'r'], by decide⟩, rfl⟩

namespace Expr

mutual

def literals : Expr → List Value
  | literal value => [value]
  | var _ => []
  | unary _ operand => operand.literals
  | binary _ left right => left.literals ++ right.literals
  | call _ arguments => literalsAll arguments

def literalsAll : List Expr → List Value
  | [] => []
  | argument :: rest => argument.literals ++ literalsAll rest

end

structure ReadsBack (expr : Expr) : Prop where
  literals : ∀ value ∈ expr.literals, value.ReadsBack
  mentions : ∀ name ∈ expr.mentions, IsName name

theorem mem_literals_call {function : Builtin} {arguments : List Expr} {value : Value} :
    value ∈ (call function arguments).literals
      ↔ ∃ argument ∈ arguments, value ∈ argument.literals := by
  rw [literals]
  induction arguments with
  | nil => simp [literalsAll]
  | cons first rest ih => simp [literalsAll, ih]

theorem mem_mentions_call {function : Builtin} {arguments : List Expr} {name : String} :
    name ∈ (call function arguments).mentions
      ↔ ∃ argument ∈ arguments, name ∈ argument.mentions := by
  rw [mentions]
  induction arguments with
  | nil => simp [mentionsAll]
  | cons first rest ih => simp [mentionsAll, ih]

theorem ReadsBack.operand {op : UnaryOp} {operand : Expr} (h : (unary op operand).ReadsBack) :
    operand.ReadsBack where
  literals value hmem := h.literals value (by rwa [Expr.literals])
  mentions name hmem := h.mentions name (by rwa [Expr.mentions])

theorem ReadsBack.left {op : BinaryOp} {left right : Expr} (h : (binary op left right).ReadsBack) :
    left.ReadsBack where
  literals value hmem := h.literals value (List.mem_append_left _ hmem)
  mentions name hmem := h.mentions name (List.mem_append_left _ hmem)

theorem ReadsBack.right {op : BinaryOp} {left right : Expr} (h : (binary op left right).ReadsBack) :
    right.ReadsBack where
  literals value hmem := h.literals value (List.mem_append_right _ hmem)
  mentions name hmem := h.mentions name (List.mem_append_right _ hmem)

theorem ReadsBack.argument {function : Builtin} {arguments : List Expr}
    (h : (call function arguments).ReadsBack) : ∀ argument ∈ arguments, argument.ReadsBack :=
  fun argument hargument =>
    { literals := fun value hmem =>
        h.literals value (mem_literals_call.mpr ⟨argument, hargument, hmem⟩)
      mentions := fun name hmem =>
        h.mentions name (mem_mentions_call.mpr ⟨argument, hargument, hmem⟩) }

theorem renderAll_eq_map (exprs : List Expr) : renderAll exprs = exprs.map (renderAt 0) := by
  induction exprs with
  | nil => rfl
  | cons first rest ih => rw [renderAll, List.map_cons, ih]

theorem relexes_call (function : Builtin) {arguments : List Expr}
    (h : ∀ argument ∈ arguments, Relexes (argument.renderAt 0) argument.bare.kinds) :
    Relexes (function.name ++ "(" ++ ", ".intercalate (arguments.map (renderAt 0)) ++ ")")
      (.name function.name :: .mark .leftParen
        :: (listed (arguments.map bare) ++ [.mark .rightParen])) := by
  have hname := relexes_name (isName_builtin function)
  obtain ⟨c, hhead, hequal⟩ := hname.head_ne_equal
  refine ⟨⟨c, by simp [hhead], hequal⟩, fun tail more hbreaks hmore => ?_⟩
  have hclosed : ScansTo (')' :: tail) (.mark .rightParen :: more) := .single rfl hmore
  have harguments := @scansTo_intercalate ',' _ .comma rfl (by simp [Breaks]) arguments (renderAt 0)
    (fun argument => argument.bare.kinds) h _ _ (by simp [Breaks]) hclosed
  have hopen : ScansTo ('(' :: _) (.mark .leftParen :: _) := .single rfl harguments
  have hcall := hname.scans (by simp [Breaks]) hopen
  have hcomma : String.ofList [',', ' '] = ", " := rfl
  simpa [listed, hcomma, List.append_assoc, Function.comp_def] using hcall

mutual

/-- The printed text of an expression is scanned as the tokens of its printed form. -/
theorem relexes_renderAt : ∀ (expr : Expr) (context : Nat), context ≤ atomPrecedence →
    expr.ReadsBack → Relexes (expr.renderAt context) (expr.phraseAt context).kinds
  | literal value, context, hcontext, h => by
      have hatom : ¬ atomPrecedence < context := by omega
      have hliteral := relexes_literal (h.literals value (by simp [literals]))
      simpa [renderAt, phraseAt, precedence, hatom, Phrase.wrapped, bare] using hliteral
  | var name, context, hcontext, h => by
      have hatom : ¬ atomPrecedence < context := by omega
      have hname := relexes_name (h.mentions name (by simp [mentions]))
      simpa [renderAt, phraseAt, precedence, hatom, Phrase.wrapped, bare] using hname
  | unary op operand, context, _, h => by
      have hoperand := relexes_renderAt operand unaryPrecedence (by decide) h.operand
      rw [renderAt]
      exact (hoperand.sign op).parenthesized _
  | binary op left right, context, _, h => by
      have hop := op.precedence_bounds
      have hbefore : op.precedence ≤ atomPrecedence := by
        simp only [atomPrecedence]
        omega
      have hafter : op.precedence + 1 ≤ atomPrecedence := by
        simp only [atomPrecedence]
        omega
      have hleft := relexes_renderAt left op.precedence hbefore h.left
      have hright := relexes_renderAt right (op.precedence + 1) hafter h.right
      rw [renderAt]
      exact (hleft.join hright op).parenthesized _
  | call function arguments, context, hcontext, h => by
      have hatom : ¬ atomPrecedence < context := by omega
      have hcall := relexes_call function (relexes_renderAll arguments h.argument)
      simpa [renderAt, phraseAt, precedence, hatom, Phrase.wrapped, bare, renderAll_eq_map,
        bareAll_eq_map] using hcall

theorem relexes_renderAll : ∀ exprs : List Expr, (∀ expr ∈ exprs, expr.ReadsBack) →
    ∀ expr ∈ exprs, Relexes (expr.renderAt 0) expr.bare.kinds
  | [], _, expr, hmem => absurd hmem List.not_mem_nil
  | first :: rest, h, expr, hmem => by
      obtain ⟨hfirst, hrest⟩ := List.forall_mem_cons.mp h
      rcases List.mem_cons.mp hmem with heq | hmem
      · rw [heq]
        exact relexes_renderAt first 0 (Nat.zero_le _) hfirst
      · exact relexes_renderAll rest hrest expr hmem

end

theorem relexes_render {expr : Expr} (h : expr.ReadsBack) : Relexes expr.render expr.bare.kinds :=
  relexes_renderAt expr 0 (Nat.zero_le _) h

end Expr

structure Statement.ReadsBack (statement : Statement) : Prop where
  target : ∀ name ∈ statement.target?, IsName name
  expr : statement.expr.ReadsBack

theorem Statement.relexes_render {statement : Statement} (h : statement.ReadsBack) :
    Relexes statement.render statement.kinds := by
  cases statement with
  | eval expr => exact Expr.relexes_render h.expr
  | assign target value =>
      have htarget := relexes_name (h.target target rfl)
      have hvalue := Expr.relexes_render h.expr
      obtain ⟨c, hhead, hequal⟩ := htarget.head_ne_equal
      refine ⟨⟨c, by simp [render, hhead], hequal⟩, fun tail more hbreaks hmore => ?_⟩
      have hassign := (ScansTo.mark .assign (hvalue.scans hbreaks hmore).blank).blank
      have hscans := htarget.scans (by simp [Breaks]) hassign
      simpa [render, Mark.text, kinds, Statement.expr] using hscans

end Flowchart
