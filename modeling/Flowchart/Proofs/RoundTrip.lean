import Flowchart.Proofs.Acceptance
import Flowchart.Proofs.Relexing

/-!
# Parsing undoes printing

The statements of a body, printed one after the other, are parsed as the same statements. Their
tokens come from a source, which is why their names and numbers can be written in one; the printed
form keeps to the limits because no derivation nests less than it does.
-/

namespace Flowchart

open Token (Kind)
open Grammar

/-! ### What a source can hold -/

namespace Token

def Kind.Writable : Kind → Prop
  | .number x => ∃ decimal : Number.Decimal, x = decimal.toFloat false
  | .name s => IsName s
  | _ => True

theorem writable_numeral (cs : List Char) : (numeral cs).kind.Writable := by
  unfold numeral
  dsimp only
  split
  · split <;> exact ⟨_, rfl⟩
  · exact ⟨_, rfl⟩

theorem writable_word {c : Char} {cs : List Char} (hblank : Text.isBlank c = false)
    (hstart : Text.isNameStart c) : (word c cs).kind.Writable := by
  have hword : IsWord (String.ofList (c :: cs.takeWhile Text.isNamePart)) := by
    exact ⟨c, cs.takeWhile Text.isNamePart, String.toList_ofList, hblank, hstart, List.all_takeWhile⟩
  unfold word
  dsimp only
  generalize String.ofList (c :: cs.takeWhile Text.isNamePart) = s at *
  by_cases htrue : s = "true"
  · simp [Kind.ofWord, htrue, Kind.Writable]
  · by_cases hfalse : s = "false"
    · simp [Kind.ofWord, hfalse, Kind.Writable]
    · have hname : Kind.ofWord s = .name s := by simp [Kind.ofWord, htrue, hfalse]
      rw [hname]
      exact ⟨hword, hname⟩

/-- What is scanned can be written. -/
theorem writable_lexeme {position : Nat} {c : Char} {cs : List Char} {lex : Lexeme}
    (hblank : Text.isBlank c = false) (h : lexeme position c cs = .ok lex) : lex.kind.Writable := by
  unfold lexeme at h
  split at h
  · cases h
    trivial
  split at h
  · split at h <;> cases h <;> trivial
  split at h
  · split at h
    · split at h
      · cases h
        trivial
      · cases h
    · cases h
  split at h
  · cases hread : quotation c position (position + width [c]) cs with
    | error error => simp [hread, Except.map] at h
    | ok inner =>
        simp only [hread, Except.map, Except.ok.injEq] at h
        subst h
        trivial
  split at h
  · cases h
    exact writable_numeral _
  split at h
  · rename_i hstart
    cases h
    exact writable_word hblank hstart
  · cases h

/-- All tokens that are scanned can be written. -/
theorem writable_scanFrom {position : Nat} {cs : List Char} {tokens : List Token}
    (h : scanFrom position cs = .ok tokens) : ∀ token ∈ tokens, token.kind.Writable := by
  rw [scanFrom_eq] at h
  split at h
  · cases h
    simp [Kind.Writable]
  · rename_i c rest hcons
    have hblank : Text.isBlank c = false := by
      have hhead := List.head?_dropWhile_not Text.isBlank cs
      simpa [hcons] using hhead
    obtain ⟨lex, hlex, h⟩ := bind_eq_ok_iff.mp h
    have hshorter : lex.rest.length < cs.length := by
      have hrest := length_lexeme_rest hlex
      have hdrop := (List.dropWhile_suffix Text.isBlank (l := cs)).length_le
      rw [hcons, List.length_cons] at hdrop
      omega
    cases hlater : scanFrom (position + width (cs.takeWhile Text.isBlank) + width lex.spelling)
        lex.rest with
    | error error => simp [hlater, Except.map] at h
    | ok later =>
        simp only [hlater, Except.map, Except.ok.injEq] at h
        subst h
        exact List.forall_mem_cons.mpr ⟨writable_lexeme hblank hlex, writable_scanFrom hlater⟩
termination_by cs.length

end Token

/-! ### What a derivation takes from its tokens -/

/-- What is collected from the leaves of an expression and from nowhere else. -/
structure Expr.Collects {α : Type} (collect : Expr → List α) : Prop where
  unary : ∀ op operand, collect (.unary op operand) = collect operand
  binary : ∀ op left right, collect (.binary op left right) = collect left ++ collect right
  call : ∀ {function arguments a},
    a ∈ collect (.call function arguments) ↔ ∃ argument ∈ arguments, a ∈ collect argument

theorem Expr.collects_literals : Expr.Collects Expr.literals where
  unary _ _ := by rw [literals]
  binary _ _ _ := by rw [literals]
  call := mem_literals_call

theorem Expr.collects_mentions : Expr.Collects Expr.mentions where
  unary _ _ := by rw [mentions]
  binary _ _ _ := by rw [mentions]
  call := mem_mentions_call

namespace Grammar

/-- What is collected from a derived expression stands among the tokens of the derivation. -/
theorem Derives.collected_mem {α : Type} {collect : Expr → List α} {kindOf : α → Kind}
    (hcollects : Expr.Collects collect)
    (hliteral : ∀ value, ∀ a ∈ collect (.literal value), kindOf a = value.kind)
    (hvar : ∀ name, ∀ a ∈ collect (.var name), kindOf a = .name name)
    {level nesting : Nat} {kinds : List Kind} {expr : Expr} (h : Derives level kinds expr nesting) :
    ∀ a ∈ collect expr, kindOf a ∈ kinds := by
  induction h with
  | join _ _ _ ihleft ihright =>
      intro a hmem
      rw [hcollects.binary] at hmem
      rcases List.mem_append.mp hmem with hmem | hmem
      · exact List.mem_append_left _ (ihleft a hmem)
      · exact List.mem_append_right _ (List.mem_cons_of_mem _ (ihright a hmem))
  | tighter _ ih => exact ih
  | sign _ _ ih =>
      rw [hcollects.unary]
      exact fun a hmem => List.mem_cons_of_mem _ (ih a hmem)
  | group _ ih =>
      exact fun a hmem => List.mem_cons_of_mem _ (List.mem_append_left _ (ih a hmem))
  | call function arguments _ ih =>
      intro a hmem
      obtain ⟨argument, hargument, ha⟩ := hcollects.call.mp hmem
      obtain ⟨phrase, hphrase, rfl⟩ := List.mem_map.mp hargument
      have hlisted := mem_listed_of_mem hphrase (ih phrase hphrase a ha)
      simp [hlisted]
  | number x => exact fun a hmem => List.mem_singleton.mpr (hliteral (.number x) a hmem)
  | text s => exact fun a hmem => List.mem_singleton.mpr (hliteral (.text s) a hmem)
  | bool b => exact fun a hmem => List.mem_singleton.mpr (hliteral (.bool b) a hmem)
  | var name => exact fun a hmem => List.mem_singleton.mpr (hvar name a hmem)

/-- The literals of what is derived are among the tokens. -/
theorem Derives.literal_mem {level nesting : Nat} {kinds : List Kind} {expr : Expr}
    (h : Derives level kinds expr nesting) : ∀ value ∈ expr.literals, value.kind ∈ kinds :=
  h.collected_mem Expr.collects_literals (by simp [Expr.literals]) (by simp [Expr.literals])

/-- The names in what is derived are among the tokens. -/
theorem Derives.mention_mem {level nesting : Nat} {kinds : List Kind} {expr : Expr}
    (h : Derives level kinds expr nesting) : ∀ name ∈ expr.mentions, Kind.name name ∈ kinds :=
  h.collected_mem Expr.collects_mentions (by simp [Expr.mentions]) (by simp [Expr.mentions])

end Grammar

/-- A literal that its printed text can be read back for: a finite number, or a text whose characters
stand for themselves between double quotes or are written as escapes of the language. -/
def Value.IsPlain : Value → Prop
  | number x => x.isFinite
  | text s => ∀ c ∈ s.toList, Token.IsPlain c
  | bool _ => True

instance : DecidablePred Value.IsPlain
  | .number x => inferInstanceAs (Decidable (x.isFinite = true))
  | .text s => List.decidableBAll Token.IsPlain s.toList
  | .bool _ => isTrue trivial

theorem Value.readsBack_of_isPlain {value : Value} (hwritable : value.kind.Writable)
    (hplain : value.IsPlain) : value.ReadsBack := by
  cases value with
  | number x =>
      obtain ⟨decimal, rfl⟩ := hwritable
      exact ⟨decimal, rfl, hplain⟩
  | text s => exact hplain
  | bool b => trivial

/-- What is read from tokens of a source can be read back, if its texts are plain. -/
theorem Grammar.Accepts.readsBack {kinds : List Kind} {expr : Expr} (h : Accepts kinds expr)
    (hwritable : ∀ kind ∈ kinds, kind.Writable) (hplain : ∀ value ∈ expr.literals, value.IsPlain) :
    expr.ReadsBack := by
  obtain ⟨⟨nesting, -, hderives⟩, -⟩ := h
  refine ⟨fun value hmem => ?_, fun name hmem => hwritable _ (hderives.mention_mem name hmem)⟩
  have hkind := hwritable _ (hderives.literal_mem value hmem)
  exact Value.readsBack_of_isPlain hkind (hplain value hmem)

theorem Grammar.AcceptsStatement.readsBack {kinds : List Kind} {statement : Statement}
    (h : AcceptsStatement kinds statement) (hwritable : ∀ kind ∈ kinds, kind.Writable)
    (hplain : ∀ value ∈ statement.expr.literals, value.IsPlain) : statement.ReadsBack := by
  cases statement with
  | eval expr => exact ⟨by simp [Statement.target?], Accepts.readsBack h hwritable hplain⟩
  | assign target value =>
      obtain ⟨valueKinds, rfl, hvalue⟩ := h
      refine ⟨?_, hvalue.readsBack (fun kind hmem => hwritable kind (by simp [hmem])) hplain⟩
      intro name hname
      obtain rfl : target = name := by simpa [Statement.target?] using hname
      exact hwritable (.name target) (by simp)

/-! ### Statements of a body -/

namespace Statement

/-- Every piece of a body is the tokens of one statement with an end mark of its own. -/
theorem of_mem_splitFrom {begun tokens piece : List Token}
    (hbegun : ∀ token ∈ begun, token.kind.endsStatement = false)
    (h : piece ∈ splitFrom begun tokens) :
    ∃ body finish, piece = body ++ [finish] ∧ finish.kind = .finish
      ∧ ∀ token ∈ body, token.kind.endsStatement = false ∧ (token ∈ begun ∨ token ∈ tokens) := by
  induction tokens generalizing begun with
  | nil => cases h
  | cons token rest ih =>
      unfold splitFrom at h
      split at h
      · have hlater : piece ∈ splitFrom [] rest → ∃ body finish,
            piece = body ++ [finish] ∧ finish.kind = .finish
              ∧ ∀ other ∈ body, other.kind.endsStatement = false
                ∧ (other ∈ begun ∨ other ∈ token :: rest) := by
          intro hpiece
          obtain ⟨body, finish, hsplit, hfinish, hbody⟩ := @ih [] (by simp) hpiece
          refine ⟨body, finish, hsplit, hfinish, fun other hmem => ?_⟩
          obtain ⟨hends, hfrom⟩ := hbody other hmem
          refine ⟨hends, .inr (List.mem_cons_of_mem _ ?_)⟩
          simpa using hfrom
        split at h
        · exact hlater h
        · rcases List.mem_cons.mp h with rfl | h
          · exact ⟨begun, _, rfl, rfl, fun other hmem => ⟨hbegun other hmem, .inl hmem⟩⟩
          · exact hlater h
      · rename_i hends
        have hnext : ∀ other ∈ begun ++ [token], other.kind.endsStatement = false := by
          intro other hmem
          rcases List.mem_append.mp hmem with hmem | hmem
          · exact hbegun other hmem
          · rw [List.mem_singleton.mp hmem]
            simpa using hends
        obtain ⟨body, finish, hsplit, hfinish, hbody⟩ := ih hnext h
        refine ⟨body, finish, hsplit, hfinish, fun other hmem => ?_⟩
        obtain ⟨hother, hfrom⟩ := hbody other hmem
        refine ⟨hother, ?_⟩
        simp only [List.mem_append, List.mem_singleton] at hfrom
        rcases hfrom with (hfrom | rfl) | hfrom
        · exact .inl hfrom
        · exact .inr (by simp)
        · exact .inr (List.mem_cons_of_mem _ hfrom)

/-- Tokens up to the next one that ends a statement are its first piece. -/
theorem splitFrom_append {begun body rest : List Token} {token : Token}
    (hbody : ∀ other ∈ body, other.kind.endsStatement = false)
    (hends : token.kind.endsStatement) (hne : begun ++ body ≠ []) :
    splitFrom begun (body ++ token :: rest)
      = (begun ++ body ++ [⟨.finish, token.position⟩]) :: splitFrom [] rest := by
  induction body generalizing begun with
  | nil =>
      have hbegun : begun.isEmpty = false := by simpa using hne
      rw [List.nil_append, splitFrom, if_pos hends, hbegun, List.append_nil]
      rfl
  | cons first body ih =>
      obtain ⟨hfirst, hbody⟩ := List.forall_mem_cons.mp hbody
      have hnot : ¬ first.kind.endsStatement = true := by simp [hfirst]
      rw [List.cons_append, splitFrom, if_neg hnot, ih hbody (by simp), List.append_assoc begun,
        List.singleton_append]

theorem kinds_ne_nil {kinds : List Kind} {statement : Statement}
    (h : AcceptsStatement kinds statement) : statement.kinds ≠ [] := by
  cases statement with
  | eval expr =>
      obtain ⟨first, rest, hkinds, -⟩ := (Expr.derives_bare expr).opens
      simp [Statement.kinds, hkinds]
  | assign target value => simp [Statement.kinds]

/-- Up to the end of the first statement, its tokens are a piece that is read as this statement. -/
theorem splitFrom_of_kinds {statement : Statement} {tokens : List Token} {ender : Kind}
    {more : List Kind} (haccepts : AcceptsStatement statement.kinds statement)
    (hends : ender.endsStatement)
    (htokens : tokens.map Token.kind = statement.kinds ++ ender :: more) :
    ∃ piece later, splitFrom [] tokens = piece :: splitFrom [] later
      ∧ ofTokens piece = .ok statement ∧ later.map Token.kind = more := by
  obtain ⟨body, others, rfl, hbody, hothers⟩ := List.map_eq_append_iff.mp htokens
  obtain ⟨token, later, rfl, rfl, hlater⟩ := List.map_eq_cons_iff.mp hothers
  have hnot : ∀ other ∈ body, other.kind.endsStatement = false := by
    intro other hmem
    refine haccepts.not_endsStatement other.kind ?_
    rw [← hbody]
    exact List.mem_map_of_mem hmem
  have hne : [] ++ body ≠ [] := by
    rintro rfl
    exact kinds_ne_nil haccepts hbody.symm
  refine ⟨body ++ [⟨.finish, token.position⟩], later, splitFrom_append hnot hends hne, ?_, hlater⟩
  refine (ofTokens_eq_ok_iff rfl (fun other hmem => ?_) statement).mpr (hbody ▸ haccepts)
  exact ne_finish_of_not_endsStatement (hnot other hmem)

theorem mapM_splitFrom_cons {first : Statement} {rest : List Statement} {tokens : List Token}
    (haccepts : ∀ statement ∈ first :: rest, AcceptsStatement statement.kinds statement)
    (htokens : tokens.map Token.kind
      = first.kinds ++ (rest.flatMap (fun statement => .mark .semicolon :: statement.kinds)
        ++ [.finish])) :
    (splitFrom [] tokens).mapM ofTokens = .ok (first :: rest) := by
  obtain ⟨hfirst, hrest⟩ := List.forall_mem_cons.mp haccepts
  induction rest generalizing first tokens with
  | nil =>
      obtain ⟨piece, later, hsplit, hread, hlater⟩ := splitFrom_of_kinds hfirst rfl htokens
      obtain rfl := List.map_eq_nil_iff.mp hlater
      rw [hsplit, List.mapM_cons, hread]
      rfl
  | cons second rest ih =>
      simp only [List.flatMap_cons, List.cons_append, List.append_assoc] at htokens
      obtain ⟨piece, later, hsplit, hread, hlater⟩ := splitFrom_of_kinds hfirst rfl htokens
      obtain ⟨hsecond, hothers⟩ := List.forall_mem_cons.mp hrest
      have hmore := ih hrest hlater hsecond hothers
      rw [hsplit, List.mapM_cons, hread, hmore]
      rfl

/-- Statements printed one after the other are cut apart and read again. -/
theorem mapM_splitFrom {statements : List Statement} {tokens : List Token}
    (haccepts : ∀ statement ∈ statements, AcceptsStatement statement.kinds statement)
    (htokens : tokens.map Token.kind
      = [Kind.mark .semicolon].intercalate (statements.map kinds) ++ [.finish]) :
    (splitFrom [] tokens).mapM ofTokens = .ok statements := by
  cases statements with
  | nil =>
      obtain ⟨token, rest, rfl, hfinish, hrest⟩ := List.map_eq_cons_iff.mp htokens
      obtain rfl := List.map_eq_nil_iff.mp hrest
      rw [splitFrom, hfinish]
      rfl
  | cons first rest =>
      rw [List.map_cons, intercalate_cons, List.flatMap_map, List.append_assoc] at htokens
      exact mapM_splitFrom_cons haccepts htokens

theorem mem_of_mapM_eq_ok {pieces : List (List Token)} {statements : List Statement}
    (h : pieces.mapM ofTokens = .ok statements) :
    ∀ statement ∈ statements, ∃ piece ∈ pieces, ofTokens piece = .ok statement := by
  induction pieces generalizing statements with
  | nil =>
      cases h
      simp
  | cons first rest ih =>
      rw [List.mapM_cons] at h
      obtain ⟨head, hhead, h⟩ := bind_eq_ok_iff.mp h
      obtain ⟨tail, htail, h⟩ := bind_eq_ok_iff.mp h
      cases h
      intro statement hmem
      rcases List.mem_cons.mp hmem with rfl | hmem
      · exact ⟨first, by simp, hhead⟩
      · obtain ⟨piece, hpiece, hread⟩ := ih htail statement hmem
        exact ⟨piece, by simp [hpiece], hread⟩

/-- What is parsed of a body is accepted as it is printed, and its names and numbers can be written. -/
theorem printable_of_parseAll {source : String} {statements : List Statement}
    (h : parseAll source = .ok statements) :
    ∀ statement ∈ statements, (∀ value ∈ statement.expr.literals, value.IsPlain) →
      AcceptsStatement statement.kinds statement ∧ statement.ReadsBack := by
  intro statement hmem hplain
  obtain ⟨pieces, hsplit, hread⟩ := bind_eq_ok_iff.mp h
  obtain ⟨piece, hpiece, hparsed⟩ := mem_of_mapM_eq_ok hread statement hmem
  cases hscan : Token.scan source with
  | error error => simp [split, hscan, Except.map] at hsplit
  | ok tokens =>
      simp only [split, hscan, Except.map, Except.ok.injEq] at hsplit
      subst hsplit
      obtain ⟨body, finish, rfl, hfinish, hbody⟩ := of_mem_splitFrom (by simp) hpiece
      have hnot : ∀ token ∈ body, token.kind ≠ .finish := fun token hmem =>
        ne_finish_of_not_endsStatement (hbody token hmem).1
      have haccepts := (ofTokens_eq_ok_iff hfinish hnot statement).mp hparsed
      have hwritable : ∀ kind ∈ body.map Token.kind, kind.Writable := by
        intro kind hkind
        obtain ⟨token, htoken, rfl⟩ := List.mem_map.mp hkind
        have hscanned := (hbody token htoken).2
        simp only [List.not_mem_nil, false_or] at hscanned
        exact Token.writable_scanFrom hscan token hscanned
      exact ⟨haccepts.printed, haccepts.readsBack hwritable hplain⟩

end Statement

open Token in
/-- **Round trip.** If a body is parsed, and its numbers are finite and its texts plain, then its
statements, printed one after the other, are parsed as the same statements. -/
theorem parseAll_render {source : String} {statements : List Statement}
    (h : Statement.parseAll source = .ok statements)
    (hplain : ∀ statement ∈ statements, ∀ value ∈ statement.expr.literals, value.IsPlain) :
    Statement.parseAll ("; ".intercalate (statements.map Statement.render)) = .ok statements := by
  have hstatements : ∀ statement ∈ statements,
      AcceptsStatement statement.kinds statement ∧ statement.ReadsBack := fun statement hmem =>
    Statement.printable_of_parseAll h statement hmem (hplain statement hmem)
  have hscans : ScansTo ("; ".intercalate (statements.map Statement.render)).toList
      ([Kind.mark .semicolon].intercalate (statements.map Statement.kinds) ++ [.finish]) := by
    have hrender : ∀ statement ∈ statements, Relexes statement.render statement.kinds :=
      fun statement hmem => Statement.relexes_render (hstatements statement hmem).2
    have hall := @scansTo_intercalate ';' _ .semicolon rfl (by simp [Breaks]) statements
      Statement.render Statement.kinds hrender [] [.finish] (by simp [Breaks]) scansTo_nil
    rwa [List.append_nil] at hall
  obtain ⟨tokens, hscan, hkinds⟩ := hscans 0
  have hread := Statement.mapM_splitFrom (fun statement hmem => (hstatements statement hmem).1) hkinds
  rw [Statement.parseAll, Statement.split, scan, hscan]
  exact hread

theorem eq_ok_of_toOption {α ε : Type} {result : Except ε α} {a : α}
    (h : result.toOption = some a) : result = .ok a := by
  cases result with
  | error e => cases h
  | ok b => exact congrArg Except.ok (Option.some.inj h)

/-- A body with blank statements, needless parentheses, zeros and the other quotes, all of which the
printed form leaves out. -/
theorem parseAll_render_negated_difference :
    let statements : List Statement :=
      [.assign "x" (.binary .multiply
        (.unary .negate (.binary .subtract
          (.literal (.number (Number.Decimal.toFloat false ⟨150, -2⟩)))
          (.binary .subtract (.var "z") (.var "y")))) (.var "k")),
        .eval (.call .print [.literal (.text "say \"hi\"\n"),
          .binary .equal (.unary .not (.var "b")) (.var "c")])]
    Statement.parseAll ("; ".intercalate (statements.map Statement.render)) = .ok statements :=
  @parseAll_render "; x = -(1.50 - (z - y)) * k;; print('say \\\"hi\\\"\\n', !b == (c))" _
    (eq_ok_of_toOption (by decide +kernel)) (by decide +kernel)

end Flowchart
