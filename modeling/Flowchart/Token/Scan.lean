import Flowchart.SyntaxError
import Flowchart.Text.Blank
import Flowchart.Text.Letter

/-!
From source to tokens. A source is blanks and lexemes in turn; each lexeme is as long as it can be.
Reading a lexeme splits the characters into the lexeme and what follows, and since no lexeme is
empty the scan ends.
-/

namespace Flowchart

def width : List Char → Nat
  | [] => 0
  | c :: cs => c.utf8Size + width cs

/-- The marks that are one character and start no longer mark. -/
def Mark.single? : Char → Option Mark
  | '(' => some leftParen
  | ')' => some rightParen
  | ',' => some comma
  | ';' => some semicolon
  | '+' => some plus
  | '-' => some minus
  | '*' => some star
  | '/' => some slash
  | '%' => some percent
  | _ => none

/-- The marks that a character is when it stands alone and when an equals sign follows. -/
def Mark.beforeEqual? : Char → Option (Mark × Mark)
  | '=' => some (assign, equal)
  | '!' => some (bang, notEqual)
  | '<' => some (less, lessEqual)
  | '>' => some (greater, greaterEqual)
  | _ => none

def Mark.doubled? : Char → Option Mark
  | '&' => some both
  | '|' => some either
  | _ => none

namespace Token

structure Lexeme where
  kind : Kind
  spelling : List Char
  rest : List Char

def escaped? : Char → Option Char
  | 'n' => some '\n'
  | 't' => some '\t'
  | '\\' => some '\\'
  | '"' => some '"'
  | '\'' => some '\''
  | _ => none

/-- The part of a text up to its closing quote: its characters, their spelling, and what follows. -/
structure Quotation where
  content : List Char
  spelling : List Char
  rest : List Char

/-- Reads a text after its opening quote. `opening` is the offset of that quote, which an unclosed
text is blamed on, and `offset` that of the next character. -/
def quotation (quote : Char) (opening : Nat) :
    Nat → List Char → Except SyntaxError Quotation
  | _, [] => .error ⟨opening, .openText⟩
  | offset, c :: cs =>
    if c = quote then .ok ⟨[], [c], cs⟩
    else if c = '\\' then
      match cs with
      | [] => .error ⟨opening, .openText⟩
      | letter :: rest =>
        match escaped? letter with
        | none => .error ⟨offset, .unknownEscape letter⟩
        | some meant =>
          (quotation quote opening (offset + width [c, letter]) rest).map fun inner =>
            ⟨meant :: inner.content, c :: letter :: inner.spelling, inner.rest⟩
    else
      (quotation quote opening (offset + width [c]) cs).map fun inner =>
        ⟨c :: inner.content, c :: inner.spelling, inner.rest⟩

def startsWithDigit (cs : List Char) : Bool := cs.head?.any Char.isDigit

/-- The number at the front of the characters: digits, then a point and more digits if a digit
follows the point. Either part may be missing, but not both. -/
def numeral (cs : List Char) : Lexeme :=
  let whole := cs.takeWhile Char.isDigit
  let afterWhole := cs.dropWhile Char.isDigit
  let number (fraction : List Char) : Kind :=
    .number ((Number.Decimal.ofDigits whole fraction).toFloat false)
  match afterWhole with
  | '.' :: tail =>
    if startsWithDigit tail then
      let fraction := tail.takeWhile Char.isDigit
      ⟨number fraction, whole ++ '.' :: fraction, tail.dropWhile Char.isDigit⟩
    else ⟨number [], whole, afterWhole⟩
  | _ => ⟨number [], whole, afterWhole⟩

def Kind.ofWord (word : String) : Kind :=
  if word = "true" then .bool true
  else if word = "false" then .bool false
  else .name word

def word (c : Char) (cs : List Char) : Lexeme :=
  let spelling := c :: cs.takeWhile Text.isNamePart
  ⟨.ofWord (String.ofList spelling), spelling, cs.dropWhile Text.isNamePart⟩

def lexeme (position : Nat) (c : Char) (cs : List Char) : Except SyntaxError Lexeme :=
  if let some mark := Mark.single? c then .ok ⟨.mark mark, [c], cs⟩
  else if let some (alone, withEqual) := Mark.beforeEqual? c then
    match cs with
    | '=' :: rest => .ok ⟨.mark withEqual, [c, '='], rest⟩
    | _ => .ok ⟨.mark alone, [c], cs⟩
  else if let some mark := Mark.doubled? c then
    match cs with
    | second :: rest =>
      if second = c then .ok ⟨.mark mark, [c, second], rest⟩
      else .error ⟨position, .loneCharacter c⟩
    | [] => .error ⟨position, .loneCharacter c⟩
  else if c = '"' || c = '\'' then
    (quotation c position (position + width [c]) cs).map fun inner =>
      ⟨.text (String.ofList inner.content), c :: inner.spelling, inner.rest⟩
  else if c.isDigit || (c = '.' && startsWithDigit cs) then .ok (numeral (c :: cs))
  else if Text.isNameStart c then .ok (word c cs)
  else .error ⟨position, .strayCharacter c⟩

/-- The spelling of a text and what follows it are the characters after its opening quote. -/
theorem quotation_spelling {quote : Char} {opening offset : Nat} {cs : List Char}
    {inner : Quotation} (h : quotation quote opening offset cs = .ok inner) :
    inner.spelling ++ inner.rest = cs := by
  fun_induction quotation quote opening offset cs generalizing inner <;>
    simp_all [Except.map] <;> grind

/-- The spelling of a number and what follows it are all the characters. -/
theorem numeral_spelling (cs : List Char) : (numeral cs).spelling ++ (numeral cs).rest = cs := by
  simp only [numeral]
  split
  · rename_i tail heq
    split
    · simp only [List.append_assoc, List.cons_append, List.takeWhile_append_dropWhile]
      rw [← heq, List.takeWhile_append_dropWhile]
    · exact List.takeWhile_append_dropWhile
  · exact List.takeWhile_append_dropWhile

theorem numeral_spelling_ne_nil {c : Char} {cs : List Char}
    (h : c.isDigit || (c = '.' && startsWithDigit cs)) : (numeral (c :: cs)).spelling ≠ [] := by
  by_cases hc : c.isDigit
  · simp only [numeral, List.takeWhile_cons_of_pos hc]
    split
    · split <;> simp
    · simp
  · have hdot : c = '.' ∧ startsWithDigit cs := by simpa [hc] using h
    obtain ⟨rfl, hs⟩ := hdot
    simp [numeral, hs]

/-- A lexeme and what follows it are the characters it was read from. -/
theorem lexeme_spelling {position : Nat} {c : Char} {cs : List Char} {lex : Lexeme}
    (h : lexeme position c cs = .ok lex) : lex.spelling ++ lex.rest = c :: cs := by
  unfold lexeme at h
  split at h
  · simp_all; subst h; rfl
  split at h
  · split at h <;> (simp at h; subst h; rfl)
  split at h
  · split at h
    · split at h
      · simp at h; subst h; simp
      · simp at h
    · simp at h
  split at h
  · cases hq : quotation c position (position + width [c]) cs with
    | error => simp [hq, Except.map] at h
    | ok inner =>
      simp only [hq, Except.map, Except.ok.injEq] at h
      subst h
      simpa using quotation_spelling hq
  split at h
  · simp at h; subst h; exact numeral_spelling _
  split at h
  · simp at h; subst h; simp [word]
  · simp at h

theorem lexeme_spelling_ne_nil {position : Nat} {c : Char} {cs : List Char} {lex : Lexeme}
    (h : lexeme position c cs = .ok lex) : lex.spelling ≠ [] := by
  unfold lexeme at h
  split at h
  · simp_all; subst h; simp
  split at h
  · split at h <;> (simp at h; subst h; simp)
  split at h
  · split at h
    · split at h
      · simp at h; subst h; simp
      · simp at h
    · simp at h
  split at h
  · cases hq : quotation c position (position + width [c]) cs with
    | error => simp [hq, Except.map] at h
    | ok inner =>
      simp only [hq, Except.map, Except.ok.injEq] at h
      subst h
      simp
  split at h
  · rename_i hdigit
    simp at h; subst h; exact numeral_spelling_ne_nil hdigit
  split at h
  · simp at h; subst h; simp [word]
  · simp at h

/-- Every lexeme takes a character, so that scanning ends. -/
theorem length_lexeme_rest {position : Nat} {c : Char} {cs : List Char} {lex : Lexeme}
    (h : lexeme position c cs = .ok lex) : lex.rest.length ≤ cs.length := by
  have hlen := congrArg List.length (lexeme_spelling h)
  have hpos := List.length_pos_iff.2 (lexeme_spelling_ne_nil h)
  simp only [List.length_append, List.length_cons] at hlen
  omega

/-- The tokens of characters that start at a byte offset; the last one says where they end. -/
def scanFrom (position : Nat) (cs : List Char) : Except SyntaxError (List Token) :=
  let start := position + width (cs.takeWhile Text.isBlank)
  match _ : cs.dropWhile Text.isBlank with
  | [] => .ok [⟨.finish, start⟩]
  | c :: rest =>
    match _ : lexeme start c rest with
    | .error error => .error error
    | .ok lex =>
      (scanFrom (start + width lex.spelling) lex.rest).map (⟨lex.kind, start⟩ :: ·)
termination_by cs.length
decreasing_by
  have hdrop := (List.dropWhile_suffix Text.isBlank (l := cs)).length_le
  have hrest := length_lexeme_rest ‹lexeme start c rest = .ok lex›
  simp only [‹cs.dropWhile Text.isBlank = c :: rest›, List.length_cons] at hdrop
  omega

def scan (source : String) : Except SyntaxError (List Token) := scanFrom 0 source.toList

end Token

end Flowchart
