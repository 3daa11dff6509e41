import Mathlib
import Flowchart.Proofs.BoundNames
import Flowchart.Proofs.ReadingAhead

/-!
# Questions are no statements

A directive begins with a word and an opening parenthesis. In a statement that is the call of a
function, and there is none of that name, so the first statement of a directive cannot be read,
whatever the prompt does to the tokens and to the statements after it. A body that asks is therefore
executed in no part, and a body of which any part is executed does not ask.
-/

namespace Flowchart

/-! ### The word of a directive -/

/-- No name goes on into a blank. -/
theorem Text.isNamePart_eq_false_of_isBlank {c : Char} (h : isBlank c) : isNamePart c = false := by
  have hcode : c.toNat ∈ [9, 10, 11, 12, 13, 0x20, 0x85, 0xa0, 0x1680, 0x2000, 0x2001, 0x2002,
      0x2003, 0x2004, 0x2005, 0x2006, 0x2007, 0x2008, 0x2009, 0x200a, 0x2028, 0x2029, 0x202f,
      0x205f, 0x3000] := by
    simp only [isBlank, CodeRanges.contains, blankRanges, List.any_cons, List.any_nil,
      Bool.or_eq_true, Bool.and_eq_true, decide_eq_true_eq, Bool.or_false, ← Char.toNat_inj,
      Char.reduceToNat] at h
    simp only [List.mem_cons, List.not_mem_nil, or_false]
    omega
  rw [← Char.ofNat_toNat c]
  revert hcode
  generalize c.toNat = code
  revert code
  decide +kernel

namespace Directive

variable {word : List Char}

theorem IsKeyword.isAlpha (h : IsKeyword word) : ∀ c ∈ word, c.isAlpha := by
  have hletters : ∀ lower ∈ [['i', 'n', 'p', 'u', 't'], ['r', 'e', 'a', 'd']],
      lower.all Char.isAlpha := by decide
  intro c hmem
  rw [← Char.isAlpha_toLower_eq_isAlpha]
  exact List.all_eq_true.mp (hletters _ h) _ (List.mem_map_of_mem hmem)

theorem IsKeyword.isSlotName (h : IsKeyword word) : IsSlotName word := by
  cases word with
  | nil => exact .inl rfl
  | cons c rest =>
      have hletters := List.forall_mem_cons.mp h.isAlpha
      refine .inr ⟨c, rest, rfl, by simp [isSlotStart, hletters.1], fun d hmem => ?_⟩
      simp [isSlotPart, isSlotStart, hletters.2 d hmem]

/-- The word of a directive differs from the words with a meaning of their own. -/
theorem IsKeyword.ne {s : String} (h : IsKeyword word)
    (hs : s.toList.map Char.toLower ∉ [['i', 'n', 'p', 'u', 't'], ['r', 'e', 'a', 'd']]) :
    String.ofList word ≠ s := by
  rintro rfl
  rw [String.toList_ofList] at hs
  exact hs h

/-- The words of directives are names of the language. -/
theorem IsKeyword.isName (h : IsKeyword word) : Token.IsName (String.ofList word) := by
  have hword : String.ofList word ≠ "" := h.ne (by decide)
  have hslot : IsSlotName (String.ofList word).toList := by
    rw [String.toList_ofList]
    exact h.isSlotName
  refine ⟨isWord_of_isSlotName hslot hword, Token.ofWord_of_ne fun b => ?_⟩
  cases b <;> exact h.ne (by decide)

/-- The words of directives are no functions. -/
theorem IsKeyword.ofName?_eq_none (h : IsKeyword word) :
    Builtin.ofName? (String.ofList word) = none := by
  rw [Builtin.ofName?, if_neg (h.ne (by decide)), if_neg (h.ne (by decide))]

/-! ### The tokens of a directive -/

/-- A directive begins with its word and an opening parenthesis, among blanks. -/
theorem exists_opening {body : String} {directive : Directive} (h : read? body = some directive) :
    ∃ before word gap inner, IsBlanks before ∧ IsKeyword word ∧ IsBlanks gap
      ∧ body.toList = before ++ (word ++ (gap ++ '(' :: inner)) := by
  obtain ⟨before, hbefore, hbody⟩ := exists_blanks body.toList
  obtain ⟨more, hmore⟩ : Text.trimChars body.toList <+: Text.skipBlanks body.toList :=
    List.rdropWhile_prefix Text.isBlank _
  obtain ⟨argument, slot, hwrites, -⟩ := exists_writes h
  generalize Text.trimChars body.toList = cs at hwrites hmore
  obtain ⟨hword, hgap, -, -, -, -⟩ := hwrites
  rw [← hmore] at hbody
  simp only [List.append_assoc, List.cons_append] at hbody
  exact ⟨before, _, _, _, hbefore, hword, hgap, hbody⟩

end Directive

namespace Token

/-- A word and an opening parenthesis are the first two tokens, whatever follows them. -/
theorem scanFrom_opening {word : String} (hword : IsName word) {gap : List Char}
    (hgap : Directive.IsBlanks gap) (position : Nat) (inner : List Char) :
    ∃ opening next, scanFrom position (word.toList ++ (gap ++ '(' :: inner))
      = (scanFrom next inner).map fun tokens =>
        ⟨.name word, position⟩ :: ⟨.mark .leftParen, opening⟩ :: tokens := by
  have hend : ∀ d ∈ (gap ++ '(' :: inner).head?, Text.isNamePart d = false := by
    intro d hhead
    cases gap with
    | nil =>
        cases hhead
        decide
    | cons c gap =>
        cases hhead
        exact Text.isNamePart_eq_false_of_isBlank (hgap _ List.mem_cons_self)
  have hparen : ∀ start, lexeme start '(' inner = .ok ⟨.mark .leftParen, ['('], inner⟩ :=
    fun _ => rfl
  refine ⟨position + width word.toList + width gap,
    position + width word.toList + width gap + width ['('], ?_⟩
  rw [scanFrom_word hword.1 hend, hword.2, scanFrom_gap hgap,
    scanFrom_lexeme (by decide) (hparen _)]
  cases scanFrom _ inner <;> rfl

end Token

/-! ### The first statement of a directive -/

namespace Reader

variable {cursor : Cursor} {error : SyntaxError} {operand : Reader}

theorem chain_of_error (h : operand cursor = .error error) (level : Nat) :
    chain level operand cursor = .error error := by
  rw [chain, h]
  rfl

/-- An expression whose first operand cannot be read cannot be read, for the same reason. -/
theorem expression_of_error (hkind : cursor.current.kind ≠ .finish)
    (h : operand cursor = .error error) : expression operand cursor = .error error := by
  rw [expression, if_neg hkind]
  iterate 6 apply chain_of_error
  exact h

/-- The call of an unknown function is complained of before anything in it is read. -/
theorem operandWith_of_unknown {name : String} (hname : cursor.current.kind = .name name)
    (hparen : cursor.following.kind = .mark .leftParen) (hunknown : Builtin.ofName? name = none)
    (deeper : Option Reader) :
    operandWith deeper cursor = .error ⟨cursor.current.position, .unknownFunction name⟩ := by
  rw [operandWith, hname]
  dsimp only
  rw [primary, hname]
  dsimp only
  rw [if_pos hparen, call, hunknown]

end Reader

namespace Statement

/-- A statement that begins with the call of an unknown function is complained of for that. -/
theorem ofTokens_of_unknown {name : String} (hunknown : Builtin.ofName? name = none)
    (position opening : Nat) (rest : List Token) :
    ofTokens (⟨.name name, position⟩ :: ⟨.mark .leftParen, opening⟩ :: rest)
      = .error ⟨position, .unknownFunction name⟩ := by
  have hread : Reader.outermost
      (Cursor.ofTokens (⟨.name name, position⟩ :: ⟨.mark .leftParen, opening⟩ :: rest))
        = .error ⟨position, .unknownFunction name⟩ :=
    Reader.expression_of_error (by simp [Cursor.ofTokens, Cursor.current])
      (Reader.operandWith_of_unknown rfl rfl hunknown _)
  rw [ofTokens]
  change (Reader.outermost _ >>= _) = _
  rw [hread]
  rfl

/-- What is begun becomes the front of the next statement. -/
theorem splitFrom_begun {begun tokens : List Token} (hbegun : begun ≠ [])
    (hends : ∃ token ∈ tokens, token.kind.endsStatement) :
    ∃ chunk others, splitFrom begun tokens = (begun ++ chunk) :: others := by
  induction tokens generalizing begun with
  | nil => simp at hends
  | cons token rest ih =>
      rw [splitFrom]
      by_cases hend : token.kind.endsStatement
      · rw [if_pos hend, if_neg (by simpa using hbegun)]
        exact ⟨_, _, rfl⟩
      · rw [if_neg hend]
        have hrest : ∃ token ∈ rest, token.kind.endsStatement := by simpa [hend] using hends
        obtain ⟨chunk, others, hsplit⟩ := ih (by simp : begun ++ [token] ≠ []) hrest
        exact ⟨token :: chunk, others, by rw [hsplit, List.append_assoc, List.singleton_append]⟩

end Statement

namespace Directive

variable {body : String} {directive : Directive}

/-- Reading the statements of a directive breaks off before the first: either its characters make no
tokens, or its word is no function. -/
theorem exists_breaksOff (h : read? body = some directive) :
    ∃ error, (Token.scan body = .error error
        ∨ ∃ word position, IsKeyword word
          ∧ error = ⟨position, .unknownFunction (String.ofList word)⟩)
      ∧ Statement.BreaksOff body [] error := by
  obtain ⟨before, word, gap, inner, hbefore, hword, hgap, hbody⟩ := exists_opening h
  obtain ⟨opening, next, hopening⟩ :=
    Token.scanFrom_opening hword.isName hgap (0 + width before) inner
  rw [String.toList_ofList, ← Token.scanFrom_gap hbefore, ← hbody, ← Token.scan] at hopening
  cases hinner : Token.scanFrom next inner with
  | error error =>
      rw [hinner] at hopening
      exact ⟨error, .inl hopening, .tokens hopening⟩
  | ok tokens =>
      rw [hinner] at hopening
      obtain ⟨front, rfl, -⟩ := (Token.scans_of_scanFrom hinner).ended
      have hends : ∃ token ∈ front ++ [⟨.finish, next + width inner⟩],
          token.kind.endsStatement :=
        ⟨_, List.mem_append_right front List.mem_cons_self, rfl⟩
      obtain ⟨chunk, others, hsplit⟩ := Statement.splitFrom_begun (List.cons_ne_nil _ _) hends
      have hchunk := Statement.ofTokens_of_unknown hword.ofName?_eq_none
        (0 + width before) opening chunk
      exact ⟨_, .inr ⟨word, _, hword, rfl⟩, @.statement _ _ [] _ _ _ _ hopening hsplit rfl hchunk⟩

end Directive

/-- **No body both asks and runs.** As statements a directive cannot be read, whatever its prompt
holds, and executing it leaves every environment as it is and prints nothing. So a session at an I/O
node either runs the body or asks what could not have been run. -/
theorem no_body_asks_and_runs :
    (∀ body directive, Directive.read? body = some directive →
      ∃ error, (Token.scan body = .error error
          ∨ ∃ word position, Directive.IsKeyword word
            ∧ error = ⟨position, .unknownFunction (String.ofList word)⟩)
        ∧ Statement.parseAll body = .error error
        ∧ ∀ environment, Body.exec environment body = ⟨environment, [], .error (.unreadable error)⟩)
    ∧ ∀ (session : Session) id node, session.graph.node? id = some node → node.kind = .io →
      session.execute id = session.runBody node
        ∨ ∃ question error, session.execute id = session.turn (.suspended id question.prompt)
            [question.prompt] session.environment (.waiting id question)
          ∧ ∀ environment,
            Body.exec environment node.body = ⟨environment, [], .error (.unreadable error)⟩ := by
  have hstops : ∀ body directive, Directive.read? body = some directive →
      ∃ error, (Token.scan body = .error error
          ∨ ∃ word position, Directive.IsKeyword word
            ∧ error = ⟨position, .unknownFunction (String.ofList word)⟩)
        ∧ Statement.parseAll body = .error error
        ∧ ∀ environment,
          Body.exec environment body = ⟨environment, [], .error (.unreadable error)⟩ := by
    intro body directive hread
    obtain ⟨error, hcause, hbreaks⟩ := Directive.exists_breaksOff hread
    have hexec : ∀ environment,
        Body.exec environment body = ⟨environment, [], .error (.unreadable error)⟩ :=
      fun environment => Body.exec_of_breaksOff hbreaks environment
    exact ⟨error, hcause, Body.parseAll_of_unreadable (congrArg Execution.result (hexec .empty)),
      hexec⟩
  refine ⟨hstops, fun session id node hnode hkind => ?_⟩
  rw [Session.execute, hnode]
  dsimp only
  rw [hkind]
  cases hread : Directive.read? node.body with
  | none => exact .inl rfl
  | some question =>
      obtain ⟨error, -, -, hexec⟩ := hstops _ _ hread
      exact .inr ⟨question, error, rfl, hexec⟩

/-- An apostrophe and a semicolon in a prompt make no statement of it. -/
theorem no_body_asks_and_runs_quoted_assignment :
    let body := "Read ( \"it's; n = 1\", n ) "
    let environment := Environment.empty.set "n" (.bool true)
    Directive.read? body = some ⟨"it's; n = 1", "n"⟩
      ∧ Body.exec environment body
        = ⟨environment, [], .error (.unreadable ⟨0, .unknownFunction "Read"⟩)⟩ := by
  intro body environment
  have hread : Directive.read? body = some ⟨"it's; n = 1", "n"⟩ := by decide +kernel
  obtain ⟨error, -, hparse, hexec⟩ := no_body_asks_and_runs.1 body _ hread
  have herror : Statement.parseAll body = .error ⟨0, .unknownFunction "Read"⟩ := by decide +kernel
  rw [herror] at hparse
  cases hparse
  exact ⟨hread, hexec environment⟩

end Flowchart
