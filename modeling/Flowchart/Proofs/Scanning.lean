import Mathlib
import Flowchart.Token.Scan

/-!
# How a source is scanned

A scan is a derivation: blanks are passed over, and each lexeme is read where the one before it has
ended. What a lexeme is does not depend on where it stands, and no lexeme goes on into a semicolon
unless it is a text that is not closed. So a source is scanned up to a semicolon as if nothing came
after it, and every semicolon of a source is a token of its own or stands in a text.
-/

namespace Flowchart

theorem map_eq_ok_iff {α β ε : Type} {result : Except ε α} {f : α → β} {b : β} :
    result.map f = .ok b ↔ ∃ a, result = .ok a ∧ f a = b := by
  cases result <;> simp [Except.map]

theorem map_eq_error_iff {α β ε : Type} {result : Except ε α} {f : α → β} {e : ε} :
    result.map f = .error e ↔ result = .error e := by
  cases result <;> simp [Except.map]

theorem width_append (front back : List Char) :
    width (front ++ back) = width front + width back := by
  induction front with
  | nil => exact (Nat.zero_add _).symm
  | cons c front ih => rw [List.cons_append, width, width, ih, Nat.add_assoc]

theorem add_width_cons (position : Nat) (c : Char) (cs : List Char) :
    position + width (c :: cs) = position + width [c] + width cs := by
  rw [← List.singleton_append, width_append, Nat.add_assoc]

theorem width_toList (s : String) : width s.toList = s.utf8ByteSize := by
  induction s using String.push_induction with
  | empty => rfl
  | push s c ih =>
      rw [String.toList_push, width_append, ih, String.utf8ByteSize_push]
      rfl

namespace Token

variable {c : Char} {cs more : List Char} {position : Nat} {lex : Lexeme} {tokens : List Token}

/-! ### One step of the scan -/

/-- Blanks are skipped, and then a lexeme is taken. -/
theorem scanFrom_eq (position : Nat) (cs : List Char) :
    scanFrom position cs =
      match cs.dropWhile Text.isBlank with
      | [] => .ok [⟨.finish, position + width (cs.takeWhile Text.isBlank)⟩]
      | c :: rest =>
        let start := position + width (cs.takeWhile Text.isBlank)
        lexeme start c rest >>= fun lex =>
          (scanFrom (start + width lex.spelling) lex.rest).map (⟨lex.kind, start⟩ :: ·) := by
  rw [scanFrom]
  split
  · rename_i hnil
    rw [hnil]
  · rename_i c rest hcons
    rw [hcons]
    dsimp only
    split
    · rename_i error herror
      rw [herror]
      rfl
    · rename_i lex hlex
      rw [hlex]
      rfl

theorem scanFrom_blank (hblank : Text.isBlank c) (position : Nat) (cs : List Char) :
    scanFrom position (c :: cs) = scanFrom (position + width [c]) cs := by
  rw [scanFrom_eq position, scanFrom_eq _ cs, List.takeWhile_cons_of_pos hblank,
    List.dropWhile_cons_of_pos hblank, add_width_cons]

theorem scanFrom_of_not_blank (hblank : Text.isBlank c = false) (position : Nat) (cs : List Char) :
    scanFrom position (c :: cs) =
      lexeme position c cs >>= fun lex =>
        (scanFrom (position + width lex.spelling) lex.rest).map (⟨lex.kind, position⟩ :: ·) := by
  have hnot : ¬ Text.isBlank c = true := by simp [hblank]
  have hstart : position + width [] = position := rfl
  rw [scanFrom_eq, List.takeWhile_cons_of_neg hnot, List.dropWhile_cons_of_neg hnot]
  dsimp only
  rw [hstart]

theorem scanFrom_lexeme (hblank : Text.isBlank c = false) (h : lexeme position c cs = .ok lex) :
    scanFrom position (c :: cs)
      = (scanFrom (position + width lex.spelling) lex.rest).map (⟨lex.kind, position⟩ :: ·) := by
  rw [scanFrom_of_not_blank hblank, h]
  rfl

theorem scanFrom_stray {error : SyntaxError} (hblank : Text.isBlank c = false)
    (h : lexeme position c cs = .error error) : scanFrom position (c :: cs) = .error error := by
  rw [scanFrom_of_not_blank hblank, h]
  rfl

/-! ### Which lexeme a character starts -/

theorem Mark.single?_of_beforeEqual? {marks : Mark × Mark}
    (h : Mark.beforeEqual? c = some marks) : Mark.single? c = none := by
  unfold Mark.beforeEqual? at h
  split at h <;> first | rfl | cases h

theorem lexeme_of_alone {alone withEqual : Mark}
    (hmarks : Mark.beforeEqual? c = some (alone, withEqual)) (hhead : ∀ d ∈ cs.head?, d ≠ '=')
    (position : Nat) : lexeme position c cs = .ok ⟨.mark alone, [c], cs⟩ := by
  simp only [lexeme, Mark.single?_of_beforeEqual? hmarks, hmarks]
  split
  · exact absurd rfl (hhead '=' rfl)
  · rfl

theorem lexeme_of_paired {alone withEqual : Mark}
    (hmarks : Mark.beforeEqual? c = some (alone, withEqual)) (position : Nat) (rest : List Char) :
    lexeme position c ('=' :: rest) = .ok ⟨.mark withEqual, [c, '='], rest⟩ := by
  simp only [lexeme, Mark.single?_of_beforeEqual? hmarks, hmarks]

theorem lexeme_of_doubled {mark : Mark} (hmark : Mark.doubled? c = some mark) (position : Nat)
    (rest : List Char) : lexeme position c (c :: rest) = .ok ⟨.mark mark, [c, c], rest⟩ := by
  have hothers : Mark.single? c = none ∧ Mark.beforeEqual? c = none := by
    unfold Mark.doubled? at hmark
    split at hmark <;> first | exact ⟨rfl, rfl⟩ | cases hmark
  simp only [lexeme, hothers, hmark, if_true]

theorem isNameStart_eq_false_of_isDigit (h : c.isDigit) : Text.isNameStart c = false := by
  rw [Char.isDigit_iff_toNat] at h
  simp only [Char.reduceToNat] at h
  have hletter : c.isAlpha = false := by
    simp [Char.isAlpha, Char.isUpper, Char.isLower, UInt32.le_iff_toNat_le]
    omega
  have hbasic : Text.isBasic c = true := by
    rw [Text.isBasic, decide_eq_true_eq]
    omega
  have hline : c ≠ '_' := by
    rintro rfl
    simp at h
  simp [Text.isNameStart, Text.isLetter, hletter, hbasic, hline]

def signals : List Char :=
  ['(', ')', ',', ';', '+', '-', '*', '/', '%', '=', '!', '<', '>', '&', '|', '"', '\'']

theorem lexeme_of_not_signal (hc : c ∉ signals) (position : Nat) (cs : List Char) :
    lexeme position c cs =
      if c.isDigit || (c = '.' && startsWithDigit cs) then .ok (numeral (c :: cs))
      else if Text.isNameStart c then .ok (word c cs)
      else .error ⟨position, .strayCharacter c⟩ := by
  have hsingle : Mark.single? c = none := by
    unfold Mark.single?
    split <;> first | rfl | exact absurd (by decide) hc
  have hequal : Mark.beforeEqual? c = none := by
    unfold Mark.beforeEqual?
    split <;> first | rfl | exact absurd (by decide) hc
  have hdoubled : Mark.doubled? c = none := by
    unfold Mark.doubled?
    split <;> first | rfl | exact absurd (by decide) hc
  have hquote : ¬ (c = '"' || c = '\'') = true := by
    rw [Bool.or_eq_true, decide_eq_true_eq, decide_eq_true_eq]
    rintro (rfl | rfl) <;> exact absurd (by decide) hc
  simp only [lexeme, hsingle, hequal, hdoubled]
  rw [if_neg hquote]

theorem lexeme_of_isNameStart (hstart : Text.isNameStart c) (position : Nat) (cs : List Char) :
    lexeme position c cs = .ok (word c cs) := by
  have hsignal : c ∉ signals := by
    have hnone : signals.all (fun signal => !Text.isNameStart signal) := by decide
    intro hmem
    have hnot := List.all_eq_true.mp hnone c hmem
    rw [hstart] at hnot
    cases hnot
  have hnumber : ¬ (c.isDigit || (c = '.' && startsWithDigit cs)) = true := by
    rw [Bool.or_eq_true, Bool.and_eq_true, decide_eq_true_eq]
    rintro (hdigit | ⟨rfl, -⟩)
    · rw [isNameStart_eq_false_of_isDigit hdigit] at hstart
      cases hstart
    · exact absurd hstart (by decide)
  rw [lexeme_of_not_signal hsignal, if_neg hnumber, if_pos hstart]

theorem lexeme_of_number (hnumber : c.isDigit || (c = '.' && startsWithDigit cs)) (position : Nat) :
    lexeme position c cs = .ok (numeral (c :: cs)) := by
  have hsignal : c ∉ signals := by
    have hnone : signals.all (fun signal => !signal.isDigit && signal != '.') := by decide
    intro hmem
    have hnot := List.all_eq_true.mp hnone c hmem
    grind
  rw [lexeme_of_not_signal hsignal, if_pos hnumber]

/-- The lexeme at the front of characters, wherever they stand. -/
inductive Lexes (c : Char) : List Char → Lexeme → Prop
  | single {cs : List Char} {mark : Mark} (hmark : Mark.single? c = some mark) :
      Lexes c cs ⟨.mark mark, [c], cs⟩
  | alone {cs : List Char} {alone withEqual : Mark}
      (hmarks : Mark.beforeEqual? c = some (alone, withEqual))
      (hhead : ∀ d ∈ cs.head?, d ≠ '=') : Lexes c cs ⟨.mark alone, [c], cs⟩
  | paired {rest : List Char} {alone withEqual : Mark}
      (hmarks : Mark.beforeEqual? c = some (alone, withEqual)) :
      Lexes c ('=' :: rest) ⟨.mark withEqual, [c, '='], rest⟩
  | doubled {rest : List Char} {mark : Mark} (hmark : Mark.doubled? c = some mark) :
      Lexes c (c :: rest) ⟨.mark mark, [c, c], rest⟩
  | text {cs : List Char} {inner : Quotation} (hquote : c = '"' ∨ c = '\'')
      (hinner : ∀ opening offset, quotation c opening offset cs = .ok inner) :
      Lexes c cs ⟨.text (String.ofList inner.content), c :: inner.spelling, inner.rest⟩
  | number {cs : List Char} (hnumber : c.isDigit || (c = '.' && startsWithDigit cs)) :
      Lexes c cs (numeral (c :: cs))
  | word {cs : List Char} (hname : Text.isNameStart c) : Lexes c cs (word c cs)

theorem Lexes.lexeme_eq (h : Lexes c cs lex) (position : Nat) :
    lexeme position c cs = .ok lex := by
  cases h with
  | single hmark => simp only [lexeme, hmark]
  | alone hmarks hhead => exact lexeme_of_alone hmarks hhead position
  | paired hmarks => exact lexeme_of_paired hmarks position _
  | doubled hmark => exact lexeme_of_doubled hmark position _
  | text hquote hinner =>
      have hread : lexeme position c cs
          = (quotation c position (position + width [c]) cs).map fun inner =>
            ⟨.text (String.ofList inner.content), c :: inner.spelling, inner.rest⟩ := by
        rcases hquote with rfl | rfl <;> rfl
      rw [hread, hinner]
      rfl
  | number hnumber => exact lexeme_of_number hnumber position
  | word hname => exact lexeme_of_isNameStart hname position cs

/-! ### Where a lexeme ends -/

inductive Closes : List Char → Prop
  | nothing : Closes []
  | semicolon (tail : List Char) : Closes (';' :: tail)

theorem Closes.takeWhile_append (h : Closes more) {p : Char → Bool} (hp : p ';' = false)
    (cs : List Char) : (cs ++ more).takeWhile p = cs.takeWhile p := by
  induction cs with
  | nil =>
      cases h with
      | nothing => rfl
      | semicolon tail => exact List.takeWhile_cons_of_neg (by simp [hp])
  | cons c cs ih => simp only [List.cons_append, List.takeWhile_cons, ih]

theorem Closes.dropWhile_append (h : Closes more) {p : Char → Bool} (hp : p ';' = false)
    (cs : List Char) : (cs ++ more).dropWhile p = cs.dropWhile p ++ more := by
  induction cs with
  | nil =>
      cases h with
      | nothing => rfl
      | semicolon tail => exact List.dropWhile_cons_of_neg (by simp [hp])
  | cons c cs ih =>
      simp only [List.cons_append, List.dropWhile_cons, ih]
      split <;> rfl

theorem Closes.startsWithDigit_append (h : Closes more) (cs : List Char) :
    startsWithDigit (cs ++ more) = startsWithDigit cs := by
  cases cs with
  | cons c cs => rfl
  | nil => cases h <;> rfl

def Lexeme.before (lex : Lexeme) (more : List Char) : Lexeme :=
  { lex with rest := lex.rest ++ more }

theorem numeral_of_fraction {tail : List Char} (hpoint : cs.dropWhile Char.isDigit = '.' :: tail)
    (hdigit : startsWithDigit tail) :
    numeral cs =
      ⟨.number ((Number.Decimal.ofDigits (cs.takeWhile Char.isDigit)
          (tail.takeWhile Char.isDigit)).toFloat false),
        cs.takeWhile Char.isDigit ++ '.' :: tail.takeWhile Char.isDigit,
        tail.dropWhile Char.isDigit⟩ := by
  unfold numeral
  rw [hpoint]
  exact if_pos hdigit

theorem numeral_of_whole
    (h : ∀ tail, cs.dropWhile Char.isDigit = '.' :: tail → startsWithDigit tail = false) :
    numeral cs =
      ⟨.number ((Number.Decimal.ofDigits (cs.takeWhile Char.isDigit) []).toFloat false),
        cs.takeWhile Char.isDigit, cs.dropWhile Char.isDigit⟩ := by
  unfold numeral
  dsimp only
  split
  · rename_i tail hpoint
    rw [h tail hpoint]
    rfl
  · rfl

theorem fraction_or_whole (cs : List Char) :
    (∃ tail, cs.dropWhile Char.isDigit = '.' :: tail ∧ startsWithDigit tail)
      ∨ ∀ tail, cs.dropWhile Char.isDigit = '.' :: tail → startsWithDigit tail = false := by
  by_cases hfraction : ∃ tail, cs.dropWhile Char.isDigit = '.' :: tail ∧ startsWithDigit tail
  · exact .inl hfraction
  · refine .inr fun tail hpoint => Bool.eq_false_iff.mpr fun hdigit => ?_
    exact hfraction ⟨tail, hpoint, hdigit⟩

/-- A number is the same with a semicolon behind it. -/
theorem Closes.numeral_append (h : Closes more) (cs : List Char) :
    numeral (cs ++ more) = (numeral cs).before more := by
  have htake := h.takeWhile_append (p := Char.isDigit) rfl cs
  have hdrop := h.dropWhile_append (p := Char.isDigit) rfl cs
  rcases fraction_or_whole cs with ⟨tail, hpoint, hdigit⟩ | hwhole
  · rw [hpoint, List.cons_append] at hdrop
    rw [numeral_of_fraction hpoint hdigit,
      numeral_of_fraction hdrop (by rwa [h.startsWithDigit_append]), htake,
      h.takeWhile_append rfl, h.dropWhile_append rfl]
    rfl
  · rw [numeral_of_whole hwhole, numeral_of_whole, htake, hdrop]
    · rfl
    intro tail hpoint
    rw [hdrop] at hpoint
    cases hafter : cs.dropWhile Char.isDigit with
    | nil =>
        rw [hafter, List.nil_append] at hpoint
        subst hpoint
        cases h
    | cons point rest =>
        rw [hafter, List.cons_append] at hpoint
        obtain ⟨rfl, rfl⟩ := List.cons.inj hpoint
        rw [h.startsWithDigit_append]
        exact hwhole rest hafter

/-- A word is the same with a semicolon behind it. -/
theorem Closes.word_append (h : Closes more) (c : Char) (cs : List Char) :
    word c (cs ++ more) = (word c cs).before more := by
  unfold word
  rw [h.takeWhile_append (by decide), h.dropWhile_append (by decide)]
  rfl

/-- A text ends at its quote, wherever it stands and whatever follows. -/
theorem quotation_append {quote : Char} {opening offset : Nat} {inner : Quotation}
    (h : quotation quote opening offset cs = .ok inner) (start next : Nat) (more : List Char) :
    quotation quote start next (cs ++ more) = .ok { inner with rest := inner.rest ++ more } := by
  fun_induction quotation quote opening offset cs generalizing inner next with
  | case1 => cases h
  | case2 offset cs =>
      cases h
      rw [List.cons_append, quotation.eq_def]
      exact if_pos rfl
  | case3 => cases h
  | case4 => cases h
  | case5 offset letter rest meant hmeant hquote ih =>
      obtain ⟨found, hrest, rfl⟩ := map_eq_ok_iff.mp h
      rw [List.cons_append, List.cons_append, quotation.eq_def]
      dsimp only
      rw [if_neg hquote, if_pos rfl, hmeant]
      dsimp only
      rw [ih hrest]
      rfl
  | case6 offset c cs hquote hbackslash ih =>
      obtain ⟨found, hrest, rfl⟩ := map_eq_ok_iff.mp h
      rw [List.cons_append, quotation.eq_def]
      dsimp only
      rw [if_neg hquote, if_neg hbackslash, ih hrest]
      rfl

/-- A text is read in the same way wherever it stands. -/
theorem quotation_anywhere {quote : Char} {opening offset : Nat} {inner : Quotation}
    (h : quotation quote opening offset cs = .ok inner) (start next : Nat) :
    quotation quote start next cs = .ok inner := by
  have hsame := quotation_append h start next []
  rwa [List.append_nil, List.append_nil] at hsame

/-- Every lexeme is of one of the sorts. -/
theorem lexes_of_lexeme (h : lexeme position c cs = .ok lex) : Lexes c cs lex := by
  unfold lexeme at h
  split at h
  · rename_i mark hmark
    cases h
    exact .single hmark
  split at h
  · rename_i alone withEqual hmarks
    split at h
    · cases h
      exact .paired hmarks
    · rename_i hnot
      cases h
      refine .alone hmarks fun d hd => ?_
      rintro rfl
      obtain ⟨rest, rfl⟩ := List.head?_eq_some_iff.mp hd
      exact hnot rest rfl
  split at h
  · rename_i mark hmark
    split at h
    · split at h
      · rename_i heq
        subst heq
        cases h
        exact .doubled hmark
      · cases h
    · cases h
  split at h
  · rename_i hquote
    obtain ⟨inner, hinner, rfl⟩ := map_eq_ok_iff.mp h
    exact .text (by simpa using hquote) (quotation_anywhere hinner)
  split at h
  · rename_i hnumber
    cases h
    exact .number hnumber
  split at h
  · rename_i hname
    cases h
    exact .word hname
  · cases h

/-- A lexeme does not go on into a semicolon. -/
theorem Lexes.append (h : Lexes c cs lex) (hmore : Closes more) :
    Lexes c (cs ++ more) (lex.before more) := by
  cases h with
  | single hmark => exact .single hmark
  | alone hmarks hhead =>
      refine .alone hmarks fun d hd => ?_
      cases cs with
      | cons => exact hhead d hd
      | nil =>
          cases hmore with
          | nothing => cases hd
          | semicolon tail =>
              cases hd
              decide
  | paired hmarks => exact .paired hmarks
  | doubled hmark => exact .doubled hmark
  | @text _ inner hquote hinner =>
      exact @Lexes.text c _ { inner with rest := inner.rest ++ more } hquote fun opening offset =>
        quotation_append (hinner opening offset) opening offset more
  | number hnumber =>
      rw [← hmore.numeral_append]
      exact .number (by rwa [hmore.startsWithDigit_append])
  | word hname =>
      rw [← hmore.word_append]
      exact .word hname

/-! ### Scans as derivations -/

/-- The characters, which start at a byte offset, are scanned as these tokens. -/
inductive Scans : Nat → List Char → List Token → Prop
  | finish (position : Nat) : Scans position [] [⟨.finish, position⟩]
  | blank {position : Nat} {c : Char} {cs : List Char} {tokens : List Token}
      (hblank : Text.isBlank c) (h : Scans (position + width [c]) cs tokens) :
      Scans position (c :: cs) tokens
  | lexeme {position : Nat} {c : Char} {cs : List Char} {lex : Lexeme} {tokens : List Token}
      (hblank : Text.isBlank c = false) (hlex : Lexes c cs lex)
      (h : Scans (position + width lex.spelling) lex.rest tokens) :
      Scans position (c :: cs) (⟨lex.kind, position⟩ :: tokens)

/-- Lexeme by lexeme, a scan succeeds. -/
theorem Scans.scanFrom_eq_ok (h : Scans position cs tokens) :
    scanFrom position cs = .ok tokens := by
  induction h with
  | finish position =>
      rw [scanFrom_eq]
      rfl
  | blank hblank _ ih => rw [scanFrom_blank hblank, ih]
  | lexeme hblank hlex _ ih =>
      rw [scanFrom_lexeme hblank (hlex.lexeme_eq _), ih]
      rfl

/-- A scan that succeeds goes lexeme by lexeme. -/
theorem scans_of_scanFrom (h : scanFrom position cs = .ok tokens) : Scans position cs tokens := by
  -- By the number of characters left: a lexeme takes several of them at once.
  induction hlength : cs.length using Nat.strongRecOn generalizing position cs tokens with
  | ind length ih =>
  subst hlength
  cases cs with
  | nil =>
      rw [scanFrom_eq] at h
      cases h
      exact .finish position
  | cons c cs =>
      cases hblank : Text.isBlank c with
      | true =>
          rw [scanFrom_blank hblank] at h
          exact .blank hblank (ih _ (Nat.lt_succ_self _) h rfl)
      | false =>
          cases hlex : lexeme position c cs with
          | error error =>
              rw [scanFrom_stray hblank hlex] at h
              cases h
          | ok lex =>
              rw [scanFrom_lexeme hblank hlex] at h
              obtain ⟨others, hothers, rfl⟩ := map_eq_ok_iff.mp h
              have hshorter := Nat.lt_succ_of_le (length_lexeme_rest hlex)
              exact .lexeme hblank (lexes_of_lexeme hlex) (ih _ hshorter hothers rfl)

theorem Lexes.kind_ne_finish (h : Lexes c cs lex) : lex.kind ≠ .finish := by
  cases h with
  | number hnumber =>
      rcases fraction_or_whole (c :: cs) with ⟨tail, hpoint, hdigit⟩ | hwhole
      · rw [numeral_of_fraction hpoint hdigit]
        simp
      · rw [numeral_of_whole hwhole]
        simp
  | word hname =>
      unfold Token.word Kind.ofWord
      dsimp only
      split
      · simp
      · split <;> simp
  | _ => simp

/-- A scan ends in its only end mark, which stands after the last character. -/
theorem Scans.ended (h : Scans position cs tokens) :
    ∃ body, tokens = body ++ [⟨.finish, position + width cs⟩]
      ∧ ∀ token ∈ body, token.kind ≠ .finish := by
  induction h with
  | finish position => exact ⟨[], rfl, by simp⟩
  | @blank position c cs tokens hblank h ih =>
      rwa [add_width_cons position c cs]
  | @lexeme position c cs lex tokens hblank hlex h ih =>
      obtain ⟨body, rfl, hbody⟩ := ih
      rw [← lexeme_spelling (hlex.lexeme_eq position), width_append, ← Nat.add_assoc]
      exact ⟨⟨lex.kind, position⟩ :: body, rfl,
        List.forall_mem_cons.mpr ⟨hlex.kind_ne_finish, hbody⟩⟩

def shift (offset : Nat) (token : Token) : Token :=
  { token with position := token.position + offset }

namespace Scans

/-- Characters are scanned as the same tokens wherever they stand. -/
theorem shift (h : Scans position cs tokens) (offset : Nat) :
    Scans (position + offset) cs (tokens.map (Token.shift offset)) := by
  induction h with
  | finish position => exact .finish _
  | blank hblank _ ih =>
      rw [Nat.add_right_comm] at ih
      exact .blank hblank ih
  | lexeme hblank hlex _ ih =>
      rw [Nat.add_right_comm] at ih
      exact .lexeme hblank hlex ih

theorem scans_semicolon {tail : List Char} (h : Scans (position + 1) tail tokens) :
    Scans position (';' :: tail) (⟨.mark .semicolon, position⟩ :: tokens) :=
  @Scans.lexeme _ _ _ ⟨.mark .semicolon, [';'], tail⟩ _ rfl (.single rfl) h

/-- A source is scanned up to a semicolon as if nothing came after it. -/
theorem before_semicolon (h : Scans position cs tokens) :
    ∃ front, tokens = front ++ [⟨.finish, position + width cs⟩] ∧ ∀ ⦃tail later⦄,
      Scans (position + width cs + 1) tail later →
        Scans position (cs ++ ';' :: tail)
          (front ++ ⟨.mark .semicolon, position + width cs⟩ :: later) := by
  induction h with
  | finish position => exact ⟨[], rfl, fun tail later hlater => scans_semicolon hlater⟩
  | @blank position c cs tokens hblank h ih =>
      obtain ⟨front, rfl, hfront⟩ := ih
      rw [add_width_cons position c cs]
      exact ⟨front, rfl, fun tail later hlater => .blank hblank (hfront hlater)⟩
  | @lexeme position c cs lex tokens hblank hlex h ih =>
      obtain ⟨front, rfl, hfront⟩ := ih
      have hwidth : position + width (c :: cs)
          = position + width lex.spelling + width lex.rest := by
        rw [← lexeme_spelling (hlex.lexeme_eq position), width_append, Nat.add_assoc]
      rw [hwidth]
      refine ⟨⟨lex.kind, position⟩ :: front, rfl, fun tail later hlater => ?_⟩
      exact @Scans.lexeme position c _ (lex.before (';' :: tail)) _ hblank
        (hlex.append (.semicolon tail)) (hfront hlater)

end Scans

/-! ### Semicolons -/

/-- How many semicolons a token has: itself, or those of its text. -/
def Kind.semicolons : Kind → Nat
  | .mark .semicolon => 1
  | .text s => s.toList.count ';'
  | _ => 0

theorem count_semicolon_takeWhile {p : Char → Bool} (hp : p ';' = false) (cs : List Char) :
    (cs.takeWhile p).count ';' = 0 := by
  refine List.count_eq_zero.mpr fun hmem => ?_
  rw [List.all_eq_true.mp List.all_takeWhile ';' hmem] at hp
  cases hp

theorem count_semicolon_quotation {quote : Char} {opening offset : Nat} {inner : Quotation}
    (hquote : quote ≠ ';') (h : quotation quote opening offset cs = .ok inner) :
    inner.spelling.count ';' = inner.content.count ';' := by
  fun_induction quotation quote opening offset cs generalizing inner with
  | case1 => cases h
  | case2 offset cs =>
      cases h
      exact List.count_cons_of_ne hquote
  | case3 => cases h
  | case4 => cases h
  | case5 offset letter rest meant hmeant _ ih =>
      obtain ⟨found, hrest, rfl⟩ := map_eq_ok_iff.mp h
      have hne : letter ≠ ';' ∧ meant ≠ ';' := by
        unfold escaped? at hmeant
        split at hmeant <;> cases hmeant <;> decide
      rw [List.count_cons_of_ne (by decide), List.count_cons_of_ne hne.1,
        List.count_cons_of_ne hne.2, ih hrest]
  | case6 offset c cs _ _ ih =>
      obtain ⟨found, hrest, rfl⟩ := map_eq_ok_iff.mp h
      rw [List.count_cons, List.count_cons, ih hrest]

theorem count_semicolon_numeral (cs : List Char) :
    (numeral cs).spelling.count ';' = (numeral cs).kind.semicolons := by
  rcases fraction_or_whole cs with ⟨tail, hpoint, hdigit⟩ | hwhole
  · rw [numeral_of_fraction hpoint hdigit, List.count_append, List.count_cons_of_ne (by decide),
      count_semicolon_takeWhile rfl, count_semicolon_takeWhile rfl]
    rfl
  · rw [numeral_of_whole hwhole, count_semicolon_takeWhile rfl]
    rfl

/-- The semicolons of a lexeme are those of its token. -/
theorem Lexes.count_semicolon (h : Lexes c cs lex) :
    lex.spelling.count ';' = lex.kind.semicolons := by
  cases h with
  | single hmark =>
      unfold Mark.single? at hmark
      split at hmark <;> cases hmark <;> rfl
  | alone hmarks | paired hmarks =>
      unfold Mark.beforeEqual? at hmarks
      split at hmarks <;> cases hmarks <;> rfl
  | doubled hmark =>
      unfold Mark.doubled? at hmark
      split at hmark <;> cases hmark <;> rfl
  | text hquote hinner =>
      have hne : c ≠ ';' := by rcases hquote with rfl | rfl <;> decide
      rw [List.count_cons_of_ne hne, count_semicolon_quotation hne (hinner 0 0), Kind.semicolons,
        String.toList_ofList]
  | number => exact count_semicolon_numeral _
  | word hname =>
      have hne : c ≠ ';' := by
        rintro rfl
        exact absurd hname (by decide)
      have hkind : ∀ s, (Kind.ofWord s).semicolons = 0 := by
        intro s
        unfold Kind.ofWord
        split
        · rfl
        · split <;> rfl
      rw [Token.word, hkind, List.count_cons_of_ne hne, count_semicolon_takeWhile (by decide)]

/-- Every semicolon of a source is a token or stands in a text. -/
theorem Scans.count_semicolon (h : Scans position cs tokens) :
    cs.count ';' = (tokens.map (·.kind.semicolons)).sum := by
  induction h with
  | finish => rfl
  | @blank position c cs tokens hblank h ih =>
      have hne : c ≠ ';' := by
        rintro rfl
        exact absurd hblank (by decide)
      rw [List.count_cons_of_ne hne, ih]
  | lexeme hblank hlex h ih =>
      rw [← lexeme_spelling (hlex.lexeme_eq 0), List.count_append, hlex.count_semicolon, ih]
      rfl

end Token

end Flowchart
