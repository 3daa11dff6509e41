import Mathlib
import Flowchart.Proofs.Scanning

/-!
# The lexemes of a source

What a lexeme of each kind is, said without the scanner: the text of a mark, digits with a point
among them, a word, or a text between quotes. The scanner takes the longest lexeme at every place,
loses no character, and stops only where no lexeme starts. It cuts a source at the borders of its
characters alone, and every number it cuts out can be read.
-/

namespace Flowchart

namespace Token

/-! ### What a lexeme is -/

def escapeLetters : List (Char × Char) :=
  [('n', '\n'), ('t', '\t'), ('\\', '\\'), ('"', '"'), ('\'', '\'')]

/-- Between two such quotes, this content is spelled in this way. -/
inductive Quotes (quote : Char) : List Char → List Char → Prop
  | nil : Quotes quote [] []
  | plain {c content spelling} (hquote : c ≠ quote) (hbackslash : c ≠ '\\')
      (h : Quotes quote content spelling) : Quotes quote (c :: content) (c :: spelling)
  | escape {letter meant content spelling} (hletter : (letter, meant) ∈ escapeLetters)
      (h : Quotes quote content spelling) :
      Quotes quote (meant :: content) ('\\' :: letter :: spelling)

inductive IsNumeric : List Char → Prop
  | whole {digits} (hne : digits ≠ []) (hdigits : ∀ d ∈ digits, d.isDigit) : IsNumeric digits
  | pointed {digits fraction} (hdigits : ∀ d ∈ digits, d.isDigit) (hne : fraction ≠ [])
      (hfraction : ∀ d ∈ fraction, d.isDigit) : IsNumeric (digits ++ '.' :: fraction)

/-- These characters are a lexeme, and it says this. The value of a number is what it is read as
wherever a decimal is read; the truth values are words that are no names. -/
inductive Spells : Kind → List Char → Prop
  | mark (mark : Mark) : Spells (.mark mark) mark.text.toList
  | number {digits decimal} (hnumeric : IsNumeric digits)
      (hread : Number.readDecimal? digits = some (false, decimal)) :
      Spells (.number (decimal.toFloat false)) digits
  | bool (b : Bool) : Spells (.bool b) (Value.bool b).display.toList
  | name {c cs} (hstart : Text.isNameStart c) (hparts : ∀ d ∈ cs, Text.isNamePart d)
      (hname : ∀ b, String.ofList (c :: cs) ≠ (Value.bool b).display) :
      Spells (.name (String.ofList (c :: cs))) (c :: cs)
  | text {quote content spelling} (hquote : quote = '"' ∨ quote = '\'')
      (h : Quotes quote content spelling) :
      Spells (.text (String.ofList content)) (quote :: (spelling ++ [quote]))

/-- At the front of these characters stands this lexeme, and no longer one. -/
structure IsLongest (kind : Kind) (lexeme cs : List Char) : Prop where
  spells : Spells kind lexeme
  front : lexeme <+: cs
  longest : ∀ other longer, Spells other longer → longer <+: cs → longer.length ≤ lexeme.length

/-! ### Numbers -/

theorem digit_ne {d c : Char} (hdigit : d.isDigit) (hc : c.isDigit = false) : d ≠ c := by
  rintro rfl
  rw [hdigit] at hc
  cases hc

theorem takeWhile_isDigit_whole {digits : List Char} (hdigits : ∀ d ∈ digits, d.isDigit) :
    digits.takeWhile Char.isDigit = digits ∧ digits.dropWhile Char.isDigit = [] :=
  ⟨List.takeWhile_eq_self_iff.mpr hdigits, List.dropWhile_eq_nil_iff.mpr hdigits⟩

theorem takeWhile_isDigit_pointed {digits : List Char} (hdigits : ∀ d ∈ digits, d.isDigit)
    (tail : List Char) :
    (digits ++ '.' :: tail).takeWhile Char.isDigit = digits
      ∧ (digits ++ '.' :: tail).dropWhile Char.isDigit = '.' :: tail := by
  have hpoint : Char.isDigit '.' = false := rfl
  rw [List.takeWhile_append_of_pos hdigits, List.dropWhile_append_of_pos hdigits]
  simp [hpoint]

theorem splitSign_of_numeric {cs : List Char} (h : IsNumeric cs) :
    Number.splitSign cs = (false, cs) := by
  have hfirst : ∀ {c rest}, c ≠ '-' → c ≠ '+' →
      Number.splitSign (c :: rest) = (false, c :: rest) := by
    intro c rest hminus hplus
    unfold Number.splitSign
    split
    · rename_i heq
      exact absurd (List.cons.inj heq).1 hminus
    · rename_i heq
      exact absurd (List.cons.inj heq).1 hplus
    · rfl
  cases h with
  | @whole _ hne hdigits =>
      obtain ⟨d, rest, rfl⟩ := List.exists_cons_of_ne_nil hne
      have hdigit := hdigits d (by simp)
      exact hfirst (digit_ne hdigit rfl) (digit_ne hdigit rfl)
  | @pointed digits fraction hdigits _ _ =>
      cases digits with
      | nil => exact hfirst (by decide) (by decide)
      | cons d rest =>
          have hdigit := hdigits d (by simp)
          exact hfirst (digit_ne hdigit rfl) (digit_ne hdigit rfl)

theorem readDecimal?_whole {digits : List Char} (hne : digits ≠ [])
    (hdigits : ∀ d ∈ digits, d.isDigit) :
    Number.readDecimal? digits = some (false, Number.Decimal.ofDigits digits []) := by
  obtain ⟨htake, hdrop⟩ := takeWhile_isDigit_whole hdigits
  rw [Number.readDecimal?, splitSign_of_numeric (.whole hne hdigits)]
  simp [Number.splitDigits, htake, hdrop, Number.splitFraction, Number.readExponent?, hne]

theorem readDecimal?_pointed {digits fraction : List Char} (hdigits : ∀ d ∈ digits, d.isDigit)
    (hne : fraction ≠ []) (hfraction : ∀ d ∈ fraction, d.isDigit) :
    Number.readDecimal? (digits ++ '.' :: fraction)
      = some (false, Number.Decimal.ofDigits digits fraction) := by
  obtain ⟨htake, hdrop⟩ := takeWhile_isDigit_pointed hdigits fraction
  obtain ⟨htakeFraction, hdropFraction⟩ := takeWhile_isDigit_whole hfraction
  rw [Number.readDecimal?, splitSign_of_numeric (.pointed hdigits hne hfraction)]
  simp [Number.splitDigits, htake, hdrop, Number.splitFraction, htakeFraction, hdropFraction,
    Number.readExponent?, hne]

theorem spells_whole {digits : List Char} (hne : digits ≠ []) (hdigits : ∀ d ∈ digits, d.isDigit) :
    Spells (.number ((Number.Decimal.ofDigits digits []).toFloat false)) digits :=
  .number (.whole hne hdigits) (readDecimal?_whole hne hdigits)

theorem spells_pointed {digits fraction : List Char} (hdigits : ∀ d ∈ digits, d.isDigit)
    (hne : fraction ≠ []) (hfraction : ∀ d ∈ fraction, d.isDigit) :
    Spells (.number ((Number.Decimal.ofDigits digits fraction).toFloat false))
      (digits ++ '.' :: fraction) :=
  .number (.pointed hdigits hne hfraction) (readDecimal?_pointed hdigits hne hfraction)

theorem startsWithDigit_iff {cs : List Char} :
    startsWithDigit cs ↔ ∃ d rest, cs = d :: rest ∧ d.isDigit := by
  cases cs with
  | nil => simp [startsWithDigit]
  | cons d rest => simp [startsWithDigit]

theorem takeWhile_isDigit_ne_nil {cs : List Char} (h : startsWithDigit cs) :
    cs.takeWhile Char.isDigit ≠ [] := by
  obtain ⟨d, rest, rfl, hdigit⟩ := startsWithDigit_iff.mp h
  simp [hdigit]

theorem isDigit_of_mem_takeWhile (cs : List Char) :
    ∀ d ∈ cs.takeWhile Char.isDigit, d.isDigit :=
  List.all_eq_true.mp List.all_takeWhile

/-- What is scanned as a number spells it. -/
theorem spells_numeral {c : Char} {cs : List Char}
    (h : c.isDigit || (c = '.' && startsWithDigit cs)) :
    Spells (numeral (c :: cs)).kind (numeral (c :: cs)).spelling := by
  rcases fraction_or_whole (c :: cs) with ⟨tail, hpoint, hdigit⟩ | hwhole
  · rw [numeral_of_fraction hpoint hdigit]
    exact spells_pointed (isDigit_of_mem_takeWhile _) (takeWhile_isDigit_ne_nil hdigit)
      (isDigit_of_mem_takeWhile _)
  · rw [numeral_of_whole hwhole]
    refine spells_whole ?_ (isDigit_of_mem_takeWhile _)
    rw [Bool.or_eq_true, Bool.and_eq_true, decide_eq_true_eq] at h
    rcases h with hdigit | ⟨rfl, hdigit⟩
    · exact takeWhile_isDigit_ne_nil (startsWithDigit_iff.mpr ⟨c, cs, rfl, hdigit⟩)
    · have hnone := hwhole cs rfl
      rw [hdigit] at hnone
      cases hnone

/-! ### Texts -/

theorem mem_escapeLetters_iff {letter meant : Char} :
    (letter, meant) ∈ escapeLetters ↔ escaped? letter = some meant := by
  unfold escaped?
  constructor
  · intro h
    simp only [escapeLetters, List.mem_cons, Prod.mk.injEq, List.not_mem_nil, or_false] at h
    rcases h with ⟨rfl, rfl⟩ | ⟨rfl, rfl⟩ | ⟨rfl, rfl⟩ | ⟨rfl, rfl⟩ | ⟨rfl, rfl⟩ <;> rfl
  · intro h
    split at h <;> cases h <;> decide

/-- What is scanned as a text is quoted in this way. -/
theorem quotes_of_quotation {quote : Char} {opening offset : Nat} {cs : List Char}
    {inner : Quotation} (h : quotation quote opening offset cs = .ok inner) :
    ∃ spelling, inner.spelling = spelling ++ [quote] ∧ Quotes quote inner.content spelling := by
  fun_induction quotation quote opening offset cs generalizing inner with
  | case1 => cases h
  | case2 offset cs =>
      cases h
      exact ⟨[], rfl, .nil⟩
  | case3 => cases h
  | case4 => cases h
  | case5 offset letter rest meant hmeant hquote ih =>
      obtain ⟨found, hrest, rfl⟩ := map_eq_ok_iff.mp h
      obtain ⟨spelling, hspelling, hquotes⟩ := ih hrest
      refine ⟨'\\' :: letter :: spelling, by simp [hspelling], ?_⟩
      exact .escape (mem_escapeLetters_iff.mpr hmeant) hquotes
  | case6 offset c cs hquote hbackslash ih =>
      obtain ⟨found, hrest, rfl⟩ := map_eq_ok_iff.mp h
      obtain ⟨spelling, hspelling, hquotes⟩ := ih hrest
      exact ⟨c :: spelling, by simp [hspelling], .plain hquote hbackslash hquotes⟩

section Quotation

variable {quote : Char} {content spelling : List Char}

theorem quotation_plain {c : Char} {cs : List Char} {opening offset : Nat} (hquote : c ≠ quote)
    (hbackslash : c ≠ '\\') :
    quotation quote opening offset (c :: cs)
      = (quotation quote opening (offset + width [c]) cs).map fun inner =>
        ⟨c :: inner.content, c :: inner.spelling, inner.rest⟩ := by
  rw [quotation.eq_def]
  dsimp only
  rw [if_neg hquote, if_neg hbackslash]

theorem quotation_escape {letter meant : Char} {cs : List Char} {opening offset : Nat}
    (hquote : quote ≠ '\\') (hletter : (letter, meant) ∈ escapeLetters) :
    quotation quote opening offset ('\\' :: letter :: cs)
      = (quotation quote opening (offset + width ['\\', letter]) cs).map fun inner =>
        ⟨meant :: inner.content, '\\' :: letter :: inner.spelling, inner.rest⟩ := by
  rw [quotation.eq_def]
  dsimp only
  rw [if_neg hquote.symm, if_pos rfl, mem_escapeLetters_iff.mp hletter]

/-- What is spelled before a quote is read up to that quote. -/
theorem quotation_of_quotes (hquote : quote ≠ '\\') (h : Quotes quote content spelling)
    (opening offset : Nat) (more : List Char) :
    quotation quote opening offset (spelling ++ quote :: more)
      = .ok ⟨content, spelling ++ [quote], more⟩ := by
  induction h generalizing offset with
  | nil =>
      rw [List.nil_append, quotation.eq_def]
      exact if_pos rfl
  | plain hne hbackslash _ ih =>
      rw [List.cons_append, quotation_plain hne hbackslash, ih]
      rfl
  | escape hletter _ ih =>
      rw [List.cons_append, List.cons_append, quotation_escape hquote hletter, ih]
      rfl

/-- What is spelled before an escape that means nothing is read up to that escape. -/
theorem quotation_of_unknown (hquote : quote ≠ '\\') (h : Quotes quote content spelling)
    {letter : Char} (hletter : ∀ meant, (letter, meant) ∉ escapeLetters) (opening offset : Nat)
    (more : List Char) :
    quotation quote opening offset (spelling ++ '\\' :: letter :: more)
      = .error ⟨offset + width spelling, .unknownEscape letter⟩ := by
  induction h generalizing offset with
  | nil =>
      have hnone : escaped? letter = none := by
        cases hmeant : escaped? letter with
        | none => rfl
        | some meant => exact absurd (mem_escapeLetters_iff.mpr hmeant) (hletter meant)
      rw [List.nil_append, quotation.eq_def]
      dsimp only
      rw [if_neg hquote.symm, if_pos rfl, hnone]
      rfl
  | @plain c _ spelling hne hbackslash _ ih =>
      rw [List.cons_append, quotation_plain hne hbackslash, ih, ← add_width_cons]
      rfl
  | @escape other _ _ spelling hother _ ih =>
      rw [List.cons_append, List.cons_append, quotation_escape hquote hother, ih, Nat.add_assoc,
        ← width_append]
      rfl

/-- A text fails to be scanned for its first escape without a meaning, or for want of its quote. -/
theorem quotation_eq_error {opening offset : Nat} {cs : List Char} {error : SyntaxError}
    (h : quotation quote opening offset cs = .error error) :
    error = ⟨opening, .openText⟩ ∨ ∃ content spelling letter more, Quotes quote content spelling
      ∧ (∀ meant, (letter, meant) ∉ escapeLetters) ∧ cs = spelling ++ '\\' :: letter :: more := by
  fun_induction quotation quote opening offset cs with
  | case1 => exact .inl (Except.error.inj h).symm
  | case2 => cases h
  | case3 => exact .inl (Except.error.inj h).symm
  | case4 offset letter rest hnone =>
      refine .inr ⟨[], [], letter, rest, .nil, fun meant hmem => ?_, rfl⟩
      rw [mem_escapeLetters_iff.mp hmem] at hnone
      cases hnone
  | case5 offset letter rest meant hmeant hquote ih =>
      rcases ih (map_eq_error_iff.mp h) with hopen
        | ⟨content, spelling, bad, more, hquotes, hbad, rfl⟩
      · exact .inl hopen
      · exact .inr ⟨_, _, bad, more, .escape (mem_escapeLetters_iff.mpr hmeant) hquotes, hbad, rfl⟩
  | case6 offset c cs hquote hbackslash ih =>
      rcases ih (map_eq_error_iff.mp h) with hopen
        | ⟨content, spelling, bad, more, hquotes, hbad, rfl⟩
      · exact .inl hopen
      · exact .inr ⟨_, _, bad, more, .plain hquote hbackslash hquotes, hbad, rfl⟩

end Quotation

/-! ### The scanner takes the longest lexeme -/

/-- The four ways in which marks are written. -/
theorem Mark.spelling_cases (mark : Mark) :
    (∃ c, mark.text.toList = [c] ∧ Mark.single? c = some mark)
      ∨ (∃ c withEqual, mark.text.toList = [c] ∧ Mark.beforeEqual? c = some (mark, withEqual))
      ∨ (∃ c alone, mark.text.toList = [c, '='] ∧ Mark.beforeEqual? c = some (alone, mark))
      ∨ ∃ c, mark.text.toList = [c, c] ∧ Mark.doubled? c = some mark := by
  cases mark with
  | assign | bang | less | greater => exact .inr (.inl ⟨_, _, rfl, rfl⟩)
  | equal | notEqual | lessEqual | greaterEqual => exact .inr (.inr (.inl ⟨_, _, rfl, rfl⟩))
  | both | either => exact .inr (.inr (.inr ⟨_, rfl, rfl⟩))
  | _ => exact .inl ⟨_, rfl, rfl⟩

theorem display_bool_of_ofWord {word : String} {b : Bool} (h : Kind.ofWord word = .bool b) :
    word = (Value.bool b).display := by
  unfold Kind.ofWord at h
  split at h
  · cases h
    assumption
  · split at h <;> cases h
    assumption

theorem ofWord_display (b : Bool) : Kind.ofWord (Value.bool b).display = .bool b := by
  cases b <;> rfl

theorem ofWord_of_ne {word : String} (h : ∀ b, word ≠ (Value.bool b).display) :
    Kind.ofWord word = .name word := by
  have htrue : word ≠ "true" := h true
  have hfalse : word ≠ "false" := h false
  rw [Kind.ofWord, if_neg htrue, if_neg hfalse]

theorem spells_word {c : Char} {cs : List Char} (hstart : Text.isNameStart c) :
    Spells (word c cs).kind (word c cs).spelling := by
  have hparts : ∀ d ∈ cs.takeWhile Text.isNamePart, Text.isNamePart d :=
    List.all_eq_true.mp List.all_takeWhile
  have hlist : (String.ofList (c :: cs.takeWhile Text.isNamePart)).toList
      = c :: cs.takeWhile Text.isNamePart := String.toList_ofList
  unfold word
  dsimp only
  cases hkind : Kind.ofWord (String.ofList (c :: cs.takeWhile Text.isNamePart)) with
  | bool b =>
      rw [← hlist, display_bool_of_ofWord hkind]
      exact .bool b
  | name s =>
      have hname : ∀ b, String.ofList (c :: cs.takeWhile Text.isNamePart)
          ≠ (Value.bool b).display := by
        intro b hsame
        rw [hsame, ofWord_display] at hkind
        cases hkind
      have hself : Kind.name s = .name (String.ofList (c :: cs.takeWhile Text.isNamePart)) := by
        rw [← hkind, ofWord_of_ne hname]
      rw [hself]
      exact .name hstart hparts hname
  | _ =>
      unfold Kind.ofWord at hkind
      split at hkind
      · cases hkind
      · split at hkind <;> cases hkind

/-- Every lexeme that is scanned spells what it says. -/
theorem Lexes.spells {c : Char} {cs : List Char} {lex : Lexeme} (h : Lexes c cs lex) :
    Spells lex.kind lex.spelling := by
  cases h with
  | single hmark =>
      unfold Mark.single? at hmark
      split at hmark <;> cases hmark <;> exact .mark _
  | alone hmarks | paired hmarks =>
      unfold Mark.beforeEqual? at hmarks
      split at hmarks <;> cases hmarks <;> exact .mark _
  | doubled hmark =>
      unfold Mark.doubled? at hmark
      split at hmark <;> cases hmark <;> exact .mark _
  | text hquote hinner =>
      obtain ⟨spelling, hspelling, hquotes⟩ := quotes_of_quotation (hinner 0 0)
      rw [hspelling]
      exact .text hquote hquotes
  | number hnumber => exact spells_numeral hnumber
  | word hname => exact spells_word hname

theorem length_le_takeWhile {p : Char → Bool} {front : List Char} (hfront : ∀ d ∈ front, p d)
    (more : List Char) : front.length ≤ ((front ++ more).takeWhile p).length := by
  rw [List.takeWhile_append_of_pos hfront, List.length_append]
  omega

theorem length_le_numeral {digits : List Char} (h : IsNumeric digits) (more : List Char) :
    digits.length ≤ (numeral (digits ++ more)).spelling.length := by
  cases h with
  | whole hne hdigits =>
      have hlength := length_le_takeWhile hdigits more
      rcases fraction_or_whole (digits ++ more) with ⟨tail, hpoint, hdigit⟩ | hwhole
      · rw [numeral_of_fraction hpoint hdigit, List.length_append]
        omega
      · rwa [numeral_of_whole hwhole]
  | @pointed digits fraction hdigits hne hfraction =>
      rw [List.append_assoc, List.cons_append]
      obtain ⟨htake, hdrop⟩ := takeWhile_isDigit_pointed hdigits (fraction ++ more)
      have hlength := length_le_takeWhile hfraction more
      have hdigit : startsWithDigit (fraction ++ more) := by
        obtain ⟨d, rest, rfl⟩ := List.exists_cons_of_ne_nil hne
        exact startsWithDigit_iff.mpr ⟨d, _, rfl, hfraction d (by simp)⟩
      rw [numeral_of_fraction hdrop hdigit, htake]
      simp only [List.length_append, List.length_cons]
      omega

theorem length_le_word {c : Char} {parts : List Char} (hparts : ∀ d ∈ parts, Text.isNamePart d)
    (more : List Char) : (c :: parts).length ≤ (word c (parts ++ more)).spelling.length := by
  have hlength := length_le_takeWhile hparts more
  rw [word, List.length_cons, List.length_cons]
  omega

theorem startsNumber_of_numeric {c : Char} {cs digits more : List Char} (h : IsNumeric digits)
    (hcs : c :: cs = digits ++ more) : c.isDigit || (c = '.' && startsWithDigit cs) := by
  cases h with
  | whole hne hdigits =>
      obtain ⟨d, rest, rfl⟩ := List.exists_cons_of_ne_nil hne
      obtain ⟨rfl, -⟩ := List.cons.inj hcs
      simp [hdigits c (by simp)]
  | @pointed digits fraction hdigits hne hfraction =>
      cases digits with
      | cons d rest =>
          obtain ⟨rfl, -⟩ := List.cons.inj hcs
          simp [hdigits c (by simp)]
      | nil =>
          obtain ⟨d, rest, rfl⟩ := List.exists_cons_of_ne_nil hne
          obtain ⟨rfl, rfl⟩ := List.cons.inj hcs
          simp [startsWithDigit, hfraction d (by simp)]

/-- Where a lexeme starts, the scanner takes one that is no shorter. -/
theorem Spells.exists_lexes {kind : Kind} {lexeme more : List Char} {c : Char} {cs : List Char}
    (h : Spells kind lexeme) (hcs : c :: cs = lexeme ++ more) :
    ∃ lex, Lexes c cs lex ∧ lexeme.length ≤ lex.spelling.length := by
  cases h with
  | mark mark =>
      rcases Mark.spelling_cases mark with ⟨d, htext, hmark⟩ | ⟨d, withEqual, htext, hmarks⟩
        | ⟨d, alone, htext, hmarks⟩ | ⟨d, htext, hmark⟩ <;> rw [htext] at hcs ⊢ <;>
        obtain ⟨rfl, rfl⟩ := List.cons.inj hcs
      · exact ⟨_, .single hmark, Nat.le_refl _⟩
      · by_cases hequal : cs.head? = some '='
        · obtain ⟨rest, rfl⟩ := List.head?_eq_some_iff.mp hequal
          exact ⟨_, .paired hmarks, by simp⟩
        · refine ⟨_, .alone hmarks fun d hd => ?_, Nat.le_refl _⟩
          rintro rfl
          exact hequal hd
      · exact ⟨_, .paired hmarks, Nat.le_refl _⟩
      · exact ⟨_, .doubled hmark, Nat.le_refl _⟩
  | number hnumeric _ =>
      refine ⟨_, .number (startsNumber_of_numeric hnumeric hcs), ?_⟩
      rw [hcs]
      exact length_le_numeral hnumeric more
  | bool b =>
      have hword : ∀ b, ∃ d rest, (Value.bool b).display.toList = d :: rest
          ∧ Text.isNameStart d ∧ ∀ e ∈ rest, Text.isNamePart e := by
        intro b
        cases b with
        | false => exact ⟨'f', ['a', 'l', 's', 'e'], rfl, rfl, List.all_eq_true.mp rfl⟩
        | true => exact ⟨'t', ['r', 'u', 'e'], rfl, rfl, List.all_eq_true.mp rfl⟩
      obtain ⟨d, rest, hlist, hstart, hparts⟩ := hword b
      rw [hlist] at hcs ⊢
      obtain ⟨rfl, rfl⟩ := List.cons.inj hcs
      exact ⟨_, .word hstart, length_le_word hparts more⟩
  | name hstart hparts _ =>
      obtain ⟨rfl, rfl⟩ := List.cons.inj hcs
      exact ⟨_, .word hstart, length_le_word hparts more⟩
  | @text quote content spelling hquote hquotes =>
      rw [List.cons_append, List.append_assoc] at hcs
      obtain ⟨rfl, rfl⟩ := List.cons.inj hcs
      have hbackslash : c ≠ '\\' := by rcases hquote with rfl | rfl <;> decide
      refine ⟨_, .text hquote fun opening offset =>
        quotation_of_quotes hbackslash hquotes opening offset more, Nat.le_refl _⟩

/-- The scanner takes the longest lexeme. -/
theorem Lexes.isLongest {c : Char} {cs : List Char} {lex : Lexeme} (h : Lexes c cs lex) :
    IsLongest lex.kind lex.spelling (c :: cs) where
  spells := h.spells
  front := ⟨lex.rest, lexeme_spelling (h.lexeme_eq 0)⟩
  longest other longer hspells hfront := by
    obtain ⟨more, hmore⟩ := hfront
    obtain ⟨taken, htaken, hlength⟩ := hspells.exists_lexes hmore.symm
    have hsame : taken = lex := Except.ok.inj ((htaken.lexeme_eq 0).symm.trans (h.lexeme_eq 0))
    rwa [hsame] at hlength

/-- Where no lexeme is scanned, none stands. -/
theorem not_spells_of_lexeme_eq_error {c : Char} {cs : List Char} {position : Nat}
    {error : SyntaxError} (h : lexeme position c cs = .error error) {kind : Kind}
    {front : List Char} (hspells : Spells kind front) : ¬ front <+: c :: cs := by
  rintro ⟨more, hmore⟩
  obtain ⟨lex, hlex, -⟩ := hspells.exists_lexes hmore.symm
  rw [hlex.lexeme_eq position] at h
  cases h

/-! ### Where no lexeme starts -/

/-- What is complained of where no lexeme starts: an escape of a text that means nothing where it
stands, and everything else where the lexeme would have started. -/
inductive Blames (start : Nat) (c : Char) (cs : List Char) : SyntaxError → Prop
  | escape {content spelling letter more} (hquote : c = '"' ∨ c = '\'')
      (hquotes : Quotes c content spelling) (hletter : ∀ meant, (letter, meant) ∉ escapeLetters)
      (hcs : cs = spelling ++ '\\' :: letter :: more) :
      Blames start c cs ⟨start + width (c :: spelling), .unknownEscape letter⟩
  | start {cause} (hcause : cause ∈ [.strayCharacter c, .loneCharacter c, .openText])
      (hknown : ∀ content spelling letter more, c = '"' ∨ c = '\'' → Quotes c content spelling →
        cs = spelling ++ '\\' :: letter :: more → ∃ meant, (letter, meant) ∈ escapeLetters) :
      Blames start c cs ⟨start, cause⟩

theorem lexeme_of_quote {c : Char} {cs : List Char} (hquote : c = '"' ∨ c = '\'')
    (position : Nat) :
    lexeme position c cs
      = (quotation c position (position + width [c]) cs).map fun inner =>
        ⟨.text (String.ofList inner.content), c :: inner.spelling, inner.rest⟩ := by
  rcases hquote with rfl | rfl <;> rfl

theorem blames_of_quotation {position : Nat} {c : Char} {cs : List Char} {error : SyntaxError}
    (hquote : c = '"' ∨ c = '\'')
    (h : quotation c position (position + width [c]) cs = .error error) :
    Blames position c cs error := by
  have hbackslash : c ≠ '\\' := by rcases hquote with rfl | rfl <;> decide
  rcases quotation_eq_error h with rfl | ⟨content, spelling, letter, more, hquotes, hletter, rfl⟩
  · refine .start (by simp) fun content spelling letter more _ hquotes hcs => ?_
    by_contra hnone
    rw [not_exists] at hnone
    rw [hcs, quotation_of_unknown hbackslash hquotes hnone] at h
    simp at h
  · rw [quotation_of_unknown hbackslash hquotes hletter] at h
    cases h
    rw [← add_width_cons]
    exact .escape hquote hquotes hletter rfl

/-- Where no lexeme is scanned, the complaint points to what is wrong. -/
theorem blames_of_lexeme_eq_error {position : Nat} {c : Char} {cs : List Char}
    {error : SyntaxError} (h : lexeme position c cs = .error error) :
    Blames position c cs error := by
  by_cases hquote : c = '"' ∨ c = '\''
  · rw [lexeme_of_quote hquote, map_eq_error_iff] at h
    exact blames_of_quotation hquote h
  · have hnone : ∀ content spelling letter more, c = '"' ∨ c = '\'' → Quotes c content spelling →
        cs = spelling ++ '\\' :: letter :: more → ∃ meant, (letter, meant) ∈ escapeLetters :=
      fun _ _ _ _ hc => absurd hc hquote
    have hnot : ¬ (c = '"' || c = '\'') = true := by simpa using hquote
    unfold lexeme at h
    rw [if_neg hnot] at h
    split at h
    · cases h
    split at h
    · split at h <;> cases h
    split at h
    · split at h
      · split at h <;> cases h
        exact .start (by simp) hnone
      · cases h
        exact .start (by simp) hnone
    split at h
    · cases h
    split at h <;> cases h
    exact .start (by simp) hnone

/-! ### Pieces of a source -/

structure Piece where
  gap : List Char
  lexeme : List Char
  kind : Kind

def Piece.chars (piece : Piece) : List Char := piece.gap ++ piece.lexeme

def placed : Nat → List Piece → List Token
  | _, [] => []
  | position, piece :: rest =>
    ⟨piece.kind, position + width piece.gap⟩ :: placed (position + width piece.chars) rest

/-- Off the front of the characters come blanks and the longest lexeme after them, as often as there
are pieces; the last characters are left. -/
inductive Munches : List Char → List Piece → List Char → Prop
  | none (rest : List Char) : Munches rest [] rest
  | piece {piece more pieces rest} (hgap : ∀ c ∈ piece.gap, Text.isBlank c)
      (hlexeme : IsLongest piece.kind piece.lexeme (piece.lexeme ++ more))
      (h : Munches more pieces rest) : Munches (piece.chars ++ more) (piece :: pieces) rest

/-- Nothing is lost between the pieces. -/
theorem Munches.chars_eq {cs rest : List Char} {pieces : List Piece} (h : Munches cs pieces rest) :
    cs = pieces.flatMap Piece.chars ++ rest := by
  induction h with
  | none => rfl
  | piece _ _ _ ih => rw [List.flatMap_cons, List.append_assoc, ← ih]

/-- Every piece is the longest lexeme where it stands. -/
theorem Munches.isLongest {cs rest : List Char} {pieces : List Piece} (h : Munches cs pieces rest) :
    ∀ piece ∈ pieces, ∃ more, IsLongest piece.kind piece.lexeme (piece.lexeme ++ more) := by
  induction h with
  | none => simp
  | @piece piece more pieces rest _ hlexeme _ ih =>
      exact List.forall_mem_cons.mpr ⟨⟨more, hlexeme⟩, ih⟩

/-- The scan of characters that start at a byte offset, told by its pieces. -/
def Told (position : Nat) (cs : List Char) (pieces : List Piece) (rest : List Char) :
    Except SyntaxError (List Token) → Prop
  | .ok tokens => (∀ c ∈ rest, Text.isBlank c)
      ∧ tokens = placed position pieces ++ [⟨.finish, position + width cs⟩]
  | .error error => ∃ gap c tail, rest = gap ++ c :: tail ∧ (∀ d ∈ gap, Text.isBlank d)
      ∧ Text.isBlank c = false ∧ (∀ kind lexeme, Spells kind lexeme → ¬ lexeme <+: c :: tail)
      ∧ Blames (position + width (pieces.flatMap Piece.chars ++ gap)) c tail error

theorem Told.of_blank {position : Nat} {cs : List Char} (h : ∀ c ∈ cs, Text.isBlank c) :
    Told position cs [] cs (.ok [⟨.finish, position + width cs⟩]) :=
  ⟨h, rfl⟩

theorem Told.of_error {position : Nat} {gap tail : List Char} {c : Char} {error : SyntaxError}
    (hgap : ∀ d ∈ gap, Text.isBlank d) (hblank : Text.isBlank c = false)
    (h : lexeme (position + width gap) c tail = .error error) :
    Told position (gap ++ c :: tail) [] (gap ++ c :: tail) (.error error) :=
  ⟨gap, c, tail, rfl, hgap, hblank, fun _ _ => not_spells_of_lexeme_eq_error h,
    blames_of_lexeme_eq_error h⟩

theorem Told.cons {position : Nat} {piece : Piece} {more rest : List Char} {pieces : List Piece}
    {result : Except SyntaxError (List Token)}
    (h : Told (position + width piece.chars) more pieces rest result) :
    Told position (piece.chars ++ more) (piece :: pieces) rest
      (result.map (⟨piece.kind, position + width piece.gap⟩ :: ·)) := by
  cases result with
  | ok tokens =>
      obtain ⟨hrest, rfl⟩ := h
      refine ⟨hrest, ?_⟩
      rw [width_append, ← Nat.add_assoc]
      rfl
  | error error =>
      obtain ⟨gap, c, tail, hsplit, hgap, hblank, hnone, hblames⟩ := h
      refine ⟨gap, c, tail, hsplit, hgap, hblank, hnone, ?_⟩
      rwa [List.flatMap_cons, List.append_assoc, width_append piece.chars, ← Nat.add_assoc]

theorem scanFrom_gap {gap : List Char} (hgap : ∀ c ∈ gap, Text.isBlank c) (position : Nat)
    (cs : List Char) : scanFrom position (gap ++ cs) = scanFrom (position + width gap) cs := by
  induction gap generalizing position with
  | nil => rfl
  | cons c gap ih =>
      obtain ⟨hblank, hgap⟩ := List.forall_mem_cons.mp hgap
      rw [List.cons_append, scanFrom_blank hblank, ih hgap, ← add_width_cons]

/-- Every scan cuts off pieces as long as it can, and its result tells of them. -/
theorem munches_scanFrom (position : Nat) (cs : List Char) :
    ∃ pieces rest, Munches cs pieces rest
      ∧ Told position cs pieces rest (scanFrom position cs) := by
  -- By the number of characters left: a piece takes several of them at once.
  induction hlength : cs.length using Nat.strongRecOn generalizing position cs with
  | ind length ih =>
  subst hlength
  have hgap : ∀ d ∈ cs.takeWhile Text.isBlank, Text.isBlank d :=
    List.all_eq_true.mp List.all_takeWhile
  have hsplit := List.takeWhile_append_dropWhile (p := Text.isBlank) (l := cs)
  have hhead := List.head?_dropWhile_not Text.isBlank cs
  generalize cs.takeWhile Text.isBlank = gap at hgap hsplit
  generalize cs.dropWhile Text.isBlank = after at hsplit hhead
  subst hsplit
  rw [scanFrom_gap hgap]
  cases after with
  | nil =>
      have hnil : scanFrom (position + width gap) [] = .ok [⟨.finish, position + width gap⟩] := by
        rw [scanFrom_eq]
        rfl
      rw [hnil, List.append_nil]
      exact ⟨[], gap, .none gap, .of_blank hgap⟩
  | cons c tail =>
      have hblank : Text.isBlank c = false := by simpa using hhead
      cases hlex : lexeme (position + width gap) c tail with
      | error error =>
          rw [scanFrom_stray hblank hlex]
          exact ⟨[], _, .none _, .of_error hgap hblank hlex⟩
      | ok lex =>
          let piece : Piece := ⟨gap, lex.spelling, lex.kind⟩
          have hspelling : lex.spelling ++ lex.rest = c :: tail := lexeme_spelling hlex
          have hchars : gap ++ c :: tail = piece.chars ++ lex.rest := by
            rw [← hspelling, ← List.append_assoc]
            rfl
          have hshorter : lex.rest.length < (gap ++ c :: tail).length := by
            have hrest := length_lexeme_rest hlex
            rw [List.length_append, List.length_cons]
            omega
          obtain ⟨pieces, rest, hmunches, htold⟩ :=
            ih _ hshorter (position + width piece.chars) lex.rest rfl
          have hlongest : IsLongest piece.kind piece.lexeme (piece.lexeme ++ lex.rest) := by
            have hlexes := (lexes_of_lexeme hlex).isLongest
            rwa [← hspelling] at hlexes
          have hwidth : position + width gap + width lex.spelling
              = position + width piece.chars := by
            rw [Piece.chars, width_append, Nat.add_assoc]
          rw [scanFrom_lexeme hblank hlex, hwidth, hchars]
          exact ⟨piece :: pieces, rest, .piece hgap hlongest hmunches, htold.cons⟩

/-! ### Offsets -/

theorem Spells.ne_nil {kind : Kind} {lexeme : List Char} (h : Spells kind lexeme) :
    lexeme ≠ [] := by
  cases h with
  | mark mark => cases mark <;> exact List.cons_ne_nil _ _
  | number hnumeric _ =>
      cases hnumeric with
      | whole hne _ => exact hne
      | pointed _ _ _ => simp
  | bool b => cases b <;> exact List.cons_ne_nil _ _
  | name => exact List.cons_ne_nil _ _
  | text => exact List.cons_ne_nil _ _

theorem Spells.kind_ne_finish {kind : Kind} {lexeme : List Char} (h : Spells kind lexeme) :
    kind ≠ .finish := by
  cases h <;> simp

theorem width_pos {cs : List Char} (h : cs ≠ []) : 0 < width cs := by
  obtain ⟨c, rest, rfl⟩ := List.exists_cons_of_ne_nil h
  exact Nat.add_pos_left c.utf8Size_pos _

/-- Tokens stand one after the other, the end mark behind all of them. -/
theorem placed_increases {pieces : List Piece} (h : ∀ piece ∈ pieces, piece.lexeme ≠ [])
    (position : Nat) (finish : Token)
    (hfinish : position + width (pieces.flatMap Piece.chars) ≤ finish.position) :
    ((placed position pieces ++ [finish]).map Token.position).Pairwise (· < ·)
      ∧ ∀ token ∈ placed position pieces ++ [finish], position ≤ token.position := by
  induction pieces generalizing position with
  | nil => simpa [placed, width] using hfinish
  | cons piece pieces ih =>
      obtain ⟨hpiece, hpieces⟩ := List.forall_mem_cons.mp h
      have hpositive := width_pos hpiece
      have hchars : width piece.chars = width piece.gap + width piece.lexeme := width_append _ _
      rw [List.flatMap_cons, width_append] at hfinish
      obtain ⟨hsorted, hlater⟩ := ih hpieces (position + width piece.chars) (by omega)
      rw [placed, List.cons_append, List.map_cons, List.pairwise_cons]
      refine ⟨⟨fun other hmem => ?_, hsorted⟩,
        List.forall_mem_cons.mpr ⟨by simp, fun token hmem => ?_⟩⟩
      · obtain ⟨token, htoken, rfl⟩ := List.mem_map.mp hmem
        have hle := hlater token htoken
        dsimp only
        omega
      · have hle := hlater token hmem
        omega

/-- No character of the source lies on both sides of this byte offset. -/
def Boundary (source : String) (offset : Nat) : Prop := String.Pos.Raw.IsValid source ⟨offset⟩

theorem boundary_of_append {source : String} {front back : List Char}
    (h : source.toList = front ++ back) : Boundary source (width front) := by
  rw [Boundary, String.Pos.Raw.isValid_iff_exists_append]
  refine ⟨String.ofList front, String.ofList back, ?_, ?_⟩
  · rw [← String.ofList_append, ← h, String.ofList_toList]
  · rw [← String.toList_ofList (l := front), width_toList, String.toList_ofList]
    rfl

theorem width_eq_utf8Len (cs : List Char) : width cs = String.utf8Len cs := by
  induction cs with
  | nil => rfl
  | cons c cs ih => rw [width, String.utf8Len, ih, Nat.add_comm]

/-- The slices that are taken of a source for a lexeme at a byte offset: from where it starts, from
there to its end, and, to see whether digits follow, from behind a point after digits. -/
structure CutsCleanly (source : String) (position : Nat) (lexeme more : List Char) : Prop where
  opens : Boundary source position
  closes : Boundary source (position + width lexeme)
  slice : String.Pos.Raw.extract source ⟨position⟩ ⟨position + width lexeme⟩ = String.ofList lexeme
  /-- Digits and points are one byte each, so that the end of a number is found by counting them. -/
  numeric : IsNumeric lexeme → width lexeme = lexeme.length
  point : ∀ digits tail, (∀ d ∈ digits, d.isDigit) → lexeme ++ more = digits ++ '.' :: tail →
    Boundary source (position + digits.length + 1)

theorem utf8Size_of_isDigit {d : Char} (h : d.isDigit) : d.utf8Size = 1 := by
  rw [Char.utf8Size_eq_one_iff]
  simp only [Char.isDigit, Bool.and_eq_true, decide_eq_true_eq] at h
  exact UInt32.le_trans h.2 (by decide)

theorem width_of_digits {digits : List Char} (h : ∀ d ∈ digits, d.isDigit) :
    width digits = digits.length := by
  induction digits with
  | nil => rfl
  | cons d digits ih =>
      obtain ⟨hdigit, hdigits⟩ := List.forall_mem_cons.mp h
      rw [width, List.length_cons, ih hdigits, utf8Size_of_isDigit hdigit, Nat.add_comm]

theorem width_of_pointed {digits : List Char} (h : ∀ d ∈ digits, d.isDigit) :
    width (digits ++ ['.']) = digits.length + 1 := by
  rw [width_append, width_of_digits h]
  rfl

theorem width_of_numeric {cs : List Char} (h : IsNumeric cs) : width cs = cs.length := by
  cases h with
  | whole _ hdigits => exact width_of_digits hdigits
  | @pointed digits fraction hdigits _ hfraction =>
      rw [List.append_cons, width_append, width_of_pointed hdigits, width_of_digits hfraction,
        ← List.append_cons, List.length_append, List.length_cons]
      omega

theorem cutsCleanly_of_append {source : String} {front lexeme more : List Char}
    (h : source.toList = front ++ lexeme ++ more) :
    CutsCleanly source (width front) lexeme more where
  opens := boundary_of_append (h.trans (List.append_assoc _ _ _))
  closes := by
    rw [← width_append]
    exact boundary_of_append h
  slice := by
    have hsource : source = String.ofList (front ++ lexeme ++ more) := by
      rw [← h, String.ofList_toList]
    rw [hsource, width_eq_utf8Len, width_eq_utf8Len]
    exact String.extract_of_valid front lexeme more
  numeric := width_of_numeric
  point digits tail hdigits hpoint := by
    rw [Nat.add_assoc, ← width_of_pointed hdigits, ← width_append]
    have hsource : source.toList = (front ++ (digits ++ ['.'])) ++ tail := by
      rw [h, List.append_assoc, hpoint]
      simp
    exact boundary_of_append hsource

/-- The slices taken for each piece start and end between characters. -/
theorem Munches.cutsCleanly {source : String} {pieces front back : List Piece} {piece : Piece}
    {rest : List Char} (h : Munches source.toList pieces rest)
    (hpieces : pieces = front ++ piece :: back) :
    CutsCleanly source (width (front.flatMap Piece.chars ++ piece.gap)) piece.lexeme
      (back.flatMap Piece.chars ++ rest) := by
  refine cutsCleanly_of_append ?_
  rw [h.chars_eq, hpieces]
  simp [Piece.chars]

theorem boundary_of_mem_placed {source : String} {pieces : List Piece} {front rest : List Char}
    (h : source.toList = front ++ pieces.flatMap Piece.chars ++ rest) :
    ∀ token ∈ placed (width front) pieces, Boundary source token.position := by
  induction pieces generalizing front with
  | nil => simp [placed]
  | cons piece pieces ih =>
      have hpiece : Boundary source (width (front ++ piece.gap)) := by
        have hsource : source.toList = (front ++ piece.gap)
            ++ (piece.lexeme ++ pieces.flatMap Piece.chars ++ rest) := by
          rw [h, List.flatMap_cons, Piece.chars]
          simp
        exact boundary_of_append hsource
      have hpieces := @ih (front ++ piece.chars) (by rw [h, List.flatMap_cons]; simp)
      rw [width_append] at hpiece hpieces
      exact List.forall_mem_cons.mpr ⟨hpiece, hpieces⟩

theorem kind_ne_finish_of_mem_placed {pieces : List Piece} {position : Nat}
    (h : ∀ piece ∈ pieces, piece.kind ≠ .finish) :
    ∀ token ∈ placed position pieces, token.kind ≠ .finish := by
  induction pieces generalizing position with
  | nil => simp [placed]
  | cons piece pieces ih =>
      obtain ⟨hpiece, hpieces⟩ := List.forall_mem_cons.mp h
      exact List.forall_mem_cons.mpr ⟨hpiece, ih hpieces⟩

/-! ### The scan of a source -/

/-- A scan divides its source into blanks and lexemes, each the longest that starts where it does,
and cuts it at borders of characters alone. The tokens are the lexemes in their order, each where it
starts, and the only end mark behind the last character; they stand at increasing offsets. A scan
that fails has come to a character at which no lexeme starts. -/
theorem scan_is_lossless_and_longest (source : String) :
    ∃ pieces rest, Munches source.toList pieces rest
      ∧ source.toList = pieces.flatMap Piece.chars ++ rest
      ∧ (∀ front piece back, pieces = front ++ piece :: back →
          CutsCleanly source (width (front.flatMap Piece.chars ++ piece.gap)) piece.lexeme
            (back.flatMap Piece.chars ++ rest))
      ∧ match scan source with
        | .ok tokens =>
          (∀ c ∈ rest, Text.isBlank c)
            ∧ tokens = placed 0 pieces ++ [⟨.finish, source.utf8ByteSize⟩]
            ∧ (∀ token ∈ placed 0 pieces, token.kind ≠ .finish)
            ∧ (tokens.map position).Pairwise (· < ·)
            ∧ ∀ token ∈ tokens, Boundary source token.position
        | .error error =>
          ∃ gap c tail, rest = gap ++ c :: tail ∧ (∀ d ∈ gap, Text.isBlank d)
            ∧ Text.isBlank c = false
            ∧ (∀ kind lexeme, Spells kind lexeme → ¬ lexeme <+: c :: tail)
            ∧ Blames (width (pieces.flatMap Piece.chars ++ gap)) c tail error := by
  obtain ⟨pieces, rest, hmunches, htold⟩ := munches_scanFrom 0 source.toList
  have hchars := hmunches.chars_eq
  refine ⟨pieces, rest, hmunches, hchars, fun _ _ _ => hmunches.cutsCleanly, ?_⟩
  rw [← scan] at htold
  cases hscan : scan source with
  | error error =>
      rw [hscan] at htold
      obtain ⟨gap, c, tail, hsplit, hgap, hblank, hnone, hblames⟩ := htold
      rw [Nat.zero_add] at hblames
      exact ⟨gap, c, tail, hsplit, hgap, hblank, hnone, hblames⟩
  | ok tokens =>
      rw [hscan] at htold
      obtain ⟨hrest, htokens⟩ := htold
      rw [Nat.zero_add, width_toList] at htokens
      have hspells : ∀ piece ∈ pieces, Spells piece.kind piece.lexeme := by
        intro piece hmem
        obtain ⟨more, hlongest⟩ := hmunches.isLongest piece hmem
        exact hlongest.spells
      have hwidth : 0 + width (pieces.flatMap Piece.chars) ≤ source.utf8ByteSize := by
        rw [← width_toList, hchars, width_append]
        omega
      have hincreases := placed_increases (fun piece hmem => (hspells piece hmem).ne_nil) 0
        ⟨.finish, source.utf8ByteSize⟩ hwidth
      have hfinish : Boundary source source.utf8ByteSize := by
        rw [← width_toList]
        exact boundary_of_append (List.append_nil _).symm
      have hplaced : ∀ token ∈ placed 0 pieces, Boundary source token.position :=
        @boundary_of_mem_placed source pieces [] rest hchars
      refine ⟨hrest, htokens, kind_ne_finish_of_mem_placed fun piece hmem =>
        (hspells piece hmem).kind_ne_finish, ?_, ?_⟩
      · rw [htokens]
        exact hincreases.1
      · intro token hmem
        rw [htokens, List.mem_append, List.mem_singleton] at hmem
        rcases hmem with hpiece | rfl
        · exact hplaced token hpiece
        · exact hfinish

end Token

end Flowchart
