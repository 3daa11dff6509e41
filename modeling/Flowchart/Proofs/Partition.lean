import Flowchart.Proofs.Pointing

/-!
# Chunks and what separates them

The tokens of a body are cut at its semicolons. Nothing but the semicolons and the end mark is left
out, whatever number of them stands in a row, in front or at the end: put together again, the chunks
are the other tokens in their order. Each chunk is a run of tokens with nothing between them and a
separator behind them, in the place of which it has an end mark of its own.

Tokens stand at different offsets, so that a token of the source is in one chunk at one place, and
two tokens are in the same chunk if no semicolon stands between them.
-/

namespace Flowchart

def Token.Separates (token : Token) : Prop := token.kind = .mark .semicolon ∨ token.kind = .finish

instance (token : Token) : Decidable token.Separates := inferInstanceAs (Decidable (_ ∨ _))

theorem Token.separates_iff {token : Token} : token.Separates ↔ token.kind.endsStatement := by
  simp [Separates, Kind.endsStatement]

namespace Statement

variable {tokens before between after : List Token} {first second finish : Token}

/-! ### Nothing is lost -/

/-- At a separator the tokens that were begun are all put out, whether there are any or not. -/
theorem flatMap_dropLast_of_separates {separator : Token} (hends : separator.Separates)
    (begun rest : List Token) :
    (splitFrom begun (separator :: rest)).flatMap List.dropLast
      = begun ++ (splitFrom [] rest).flatMap List.dropLast := by
  rw [splitFrom, if_pos (Token.separates_iff.mp hends)]
  cases begun with
  | nil => rfl
  | cons head begun => rw [if_neg (by simp), List.flatMap_cons, List.dropLast_concat]

/-- Put together without their end marks, the chunks are what was begun and then all tokens but the
separators. -/
theorem flatMap_dropLast_splitFrom (hfinish : finish.Separates) (begun front : List Token) :
    (splitFrom begun (front ++ [finish])).flatMap List.dropLast
      = begun ++ front.filter (¬ ·.Separates) := by
  induction front generalizing begun with
  | nil =>
      rw [List.nil_append, flatMap_dropLast_of_separates hfinish]
      rfl
  | cons token front ih =>
      rw [List.cons_append]
      by_cases hends : token.Separates
      · have hskip : (token :: front).filter (¬ ·.Separates) = front.filter (¬ ·.Separates) :=
          List.filter_cons_of_neg (by simpa using hends)
        calc (splitFrom begun (token :: (front ++ [finish]))).flatMap List.dropLast
            = begun ++ (splitFrom [] (front ++ [finish])).flatMap List.dropLast :=
              flatMap_dropLast_of_separates hends _ _
          _ = begun ++ front.filter (¬ ·.Separates) := by rw [ih, List.nil_append]
          _ = begun ++ (token :: front).filter (¬ ·.Separates) := by rw [hskip]
      · have hkeep : (token :: front).filter (¬ ·.Separates)
            = token :: front.filter (¬ ·.Separates) :=
          List.filter_cons_of_pos (by simpa using hends)
        calc (splitFrom begun (token :: (front ++ [finish]))).flatMap List.dropLast
            = (splitFrom (begun ++ [token]) (front ++ [finish])).flatMap List.dropLast := by
              rw [splitFrom, if_neg (mt Token.separates_iff.mpr hends)]
          _ = begun ++ [token] ++ front.filter (¬ ·.Separates) := ih _
          _ = begun ++ (token :: front).filter (¬ ·.Separates) := by
              rw [hkeep, List.append_assoc, List.singleton_append]

/-! ### Which tokens stay together -/

section Together

variable {front body back : List Token} {separator token : Token}

theorem Stands.not_separates (h : Stands tokens front body separator back) (hmem : token ∈ body) :
    ¬ token.Separates := by
  rw [Token.separates_iff, h.inner token hmem]
  exact Bool.false_ne_true

theorem Stands.separates (h : Stands tokens front body separator back) : separator.Separates :=
  Token.separates_iff.mpr h.closes

/-- Of distinct tokens, those behind a token of a chunk are the rest of the chunk, its separator and
what follows that. -/
theorem Stands.rest_eq (h : Stands tokens front body separator back) (hdistinct : tokens.Nodup)
    (htokens : tokens = before ++ first :: after) (hfirst : first ∈ body) :
    ∃ inner rest, body = inner ++ first :: rest ∧ before = front ++ inner
      ∧ after = rest ++ separator :: back := by
  obtain ⟨inner, rest, rfl⟩ := List.append_of_mem hfirst
  have hsame : before ++ first :: after
      = (front ++ inner) ++ first :: (rest ++ separator :: back) := by
    rw [← htokens, h.tokens_eq]
    simp
  rw [htokens, List.nodup_middle, List.nodup_cons, List.mem_append, not_or] at hdistinct
  obtain ⟨hfront, -, hback⟩ :=
    (List.append_cons_inj_of_notMem hdistinct.1.1 hdistinct.1.2).mp hsame
  exact ⟨inner, rest, rfl, hfront, hback⟩

/-- What stands between two tokens of a chunk is in the chunk as well. -/
theorem Stands.mem_of_between (h : Stands tokens front body separator back)
    (hdistinct : tokens.Nodup) (htokens : tokens = before ++ first :: (between ++ second :: after))
    (hfirst : first ∈ body) (hsecond : second ∈ body) : ∀ token ∈ between, token ∈ body := by
  have hagain : tokens = (before ++ first :: between) ++ second :: after := by
    rw [htokens]
    simp
  obtain ⟨inner, rest, hbody, hbefore, -⟩ := h.rest_eq hdistinct htokens hfirst
  obtain ⟨others, last, hsame, hbetween, -⟩ := h.rest_eq hdistinct hagain hsecond
  intro token hmem
  have hothers : inner ++ first :: between = others := by
    rw [hbefore, List.append_assoc] at hbetween
    exact List.append_cancel_left hbetween
  rw [hsame, ← hothers]
  simp [hmem]

/-- A token of a chunk is followed in it by all tokens up to the next separator. -/
theorem Stands.mem_of_followed (h : Stands tokens front body separator back)
    (hdistinct : tokens.Nodup) (htokens : tokens = before ++ first :: (between ++ second :: after))
    (hfirst : first ∈ body) (hbetween : ∀ token ∈ between, ¬ token.Separates)
    (hsecond : ¬ second.Separates) : second ∈ body := by
  obtain ⟨inner, rest, rfl, -, hafter⟩ := h.rest_eq hdistinct htokens hfirst
  have hnone : separator ∉ between ++ [second] := by
    intro hmem
    rcases List.mem_append.mp hmem with hmem | hmem
    · exact hbetween separator hmem h.separates
    · exact hsecond (List.mem_singleton.mp hmem ▸ h.separates)
  -- The separator of the chunk stands behind the second token, or among those up to it.
  rw [List.append_cons between second after, List.append_eq_append_iff] at hafter
  rcases hafter with ⟨more, rfl, -⟩ | ⟨more, hmore, hback⟩
  · simp
  · cases more with
    | nil =>
        rw [List.append_nil] at hmore
        rw [← hmore]
        simp
    | cons next more =>
        obtain ⟨rfl, -⟩ := List.cons.inj hback
        refine absurd ?_ hnone
        rw [hmore]
        simp

end Together

theorem mem_of_mem_chunk {body : List Token} {position : Nat} (hfirst : ¬ first.Separates)
    (h : first ∈ body ++ [⟨.finish, position⟩]) : first ∈ body := by
  rcases List.mem_append.mp h with hmem | hmem
  · exact hmem
  · rw [List.mem_singleton.mp hmem] at hfirst
    exact absurd (.inr rfl) hfirst

theorem exists_stands_of_mem {chunk : List Token} (h : chunk ∈ splitFrom [] tokens) :
    ∃ front body separator back, Stands tokens front body separator back
      ∧ chunk = body ++ [⟨.finish, separator.position⟩] := by
  obtain ⟨earlier, later, hsplit⟩ := List.append_of_mem h
  obtain ⟨front, body, separator, back, hstands, -, hchunk⟩ := stands_of_splitFrom (by simp) hsplit
  exact ⟨front, body, separator, back, hstands, hchunk⟩

/-- A token that is no separator stands in a chunk. -/
theorem exists_chunk_of_mem {body : List Token} (hfinish : finish.Separates) (hmem : first ∈ body)
    (hfirst : ¬ first.Separates) : ∃ chunk ∈ splitFrom [] (body ++ [finish]), first ∈ chunk := by
  have hkept : first ∈ (splitFrom [] (body ++ [finish])).flatMap List.dropLast := by
    rw [flatMap_dropLast_splitFrom hfinish, List.nil_append]
    exact List.mem_filter.mpr ⟨hmem, decide_eq_true hfirst⟩
  obtain ⟨chunk, hchunk, hdropped⟩ := List.mem_flatMap.mp hkept
  exact ⟨chunk, hchunk, List.mem_of_mem_dropLast hdropped⟩

/-! ### Chunks of a source -/

/-- How chunks lie among the tokens that they are cut from. -/
structure Partitions (tokens : List Token) (chunks : List (List Token)) : Prop where
  flatMap_dropLast : chunks.flatMap List.dropLast = tokens.filter (¬ ·.Separates)
  positions_lt : ((chunks.flatMap List.dropLast).map Token.position).Pairwise (· < ·)
  together_iff : ∀ before first between second after,
    tokens = before ++ first :: (between ++ second :: after) → ¬ first.Separates →
      ¬ second.Separates →
        ((∃ chunk ∈ chunks, first ∈ chunk ∧ second ∈ chunk)
          ↔ ∀ token ∈ between, token.kind ≠ .mark .semicolon)
  stands : ∀ chunk ∈ chunks, ∃ before body separator after,
    tokens = before ++ body ++ separator :: after ∧ body ≠ []
      ∧ (∀ token ∈ body, ¬ token.Separates) ∧ separator.Separates
      ∧ chunk = body ++ [⟨.finish, separator.position⟩]

section Ended

variable {body : List Token}

/-- Nothing stands behind the end mark. -/
theorem subset_of_ended (h : body ++ [finish] = before ++ second :: after) : before ⊆ body := by
  have hdropped := congrArg List.dropLast h
  rw [List.dropLast_concat, List.dropLast_append_of_ne_nil (List.cons_ne_nil _ _)] at hdropped
  rw [hdropped]
  exact List.subset_append_left _ _

/-- Two tokens are in the same chunk if and only if no semicolon stands between them. -/
theorem exists_chunk_iff (hdistinct : (body ++ [finish]).Nodup) (hfinish : finish.kind = .finish)
    (honly : ∀ token ∈ body, token.kind ≠ .finish)
    (htokens : body ++ [finish] = before ++ first :: (between ++ second :: after))
    (hfirst : ¬ first.Separates) (hsecond : ¬ second.Separates) :
    (∃ chunk ∈ splitFrom [] (body ++ [finish]), first ∈ chunk ∧ second ∈ chunk)
      ↔ ∀ token ∈ between, token.kind ≠ .mark .semicolon := by
  have hagain : body ++ [finish] = (before ++ first :: between) ++ second :: after := by
    rw [htokens]
    simp
  have hbody : before ++ first :: between ⊆ body := subset_of_ended hagain
  constructor
  · rintro ⟨chunk, hchunk, hmem, hmem'⟩ token hbetween hsemicolon
    obtain ⟨front, inner, separator, back, hstands, rfl⟩ := exists_stands_of_mem hchunk
    have hinner : token ∈ inner := hstands.mem_of_between hdistinct htokens
      (mem_of_mem_chunk hfirst hmem) (mem_of_mem_chunk hsecond hmem') token hbetween
    exact hstands.not_separates hinner (.inl hsemicolon)
  · intro hnone
    obtain ⟨chunk, hchunk, hmem⟩ :=
      exists_chunk_of_mem (.inr hfinish) (hbody (by simp)) hfirst
    obtain ⟨front, inner, separator, back, hstands, rfl⟩ := exists_stands_of_mem hchunk
    -- The end mark is the last of the tokens, so there is none between the two either.
    have hkept : ∀ token ∈ between, ¬ token.Separates := by
      intro token hbetween hseparates
      exact hseparates.elim (hnone token hbetween) (honly token (hbody (by simp [hbetween])))
    have hinner : second ∈ inner := hstands.mem_of_followed hdistinct htokens
      (mem_of_mem_chunk hfirst hmem) hkept hsecond
    exact ⟨_, hchunk, hmem, List.mem_append_left _ hinner⟩

/-- Tokens one behind the other that their only end mark closes are cut in this way. -/
theorem partitions_splitFrom
    (hsorted : ((body ++ [finish]).map Token.position).Pairwise (· < ·))
    (hfinish : finish.kind = .finish) (honly : ∀ token ∈ body, token.kind ≠ .finish) :
    Partitions (body ++ [finish]) (splitFrom [] (body ++ [finish])) := by
  have hseparates : finish.Separates := .inr hfinish
  have hdistinct : (body ++ [finish]).Nodup := .of_map _ (hsorted.imp Nat.ne_of_lt)
  have hkept : (splitFrom [] (body ++ [finish])).flatMap List.dropLast
      = (body ++ [finish]).filter (¬ ·.Separates) := by
    rw [flatMap_dropLast_splitFrom hseparates, List.filter_append]
    simp [hseparates]
  refine ⟨hkept, ?_, ?_, ?_⟩
  · rw [hkept]
    exact hsorted.sublist (List.filter_sublist.map _)
  · intro before first between second after htokens hfirst hsecond
    exact exists_chunk_iff hdistinct hfinish honly htokens hfirst hsecond
  · intro chunk hchunk
    obtain ⟨front, inner, separator, back, hstands, rfl⟩ := exists_stands_of_mem hchunk
    exact ⟨front, inner, separator, back, hstands.tokens_eq, hstands.body_ne_nil,
      fun token hmem => hstands.not_separates hmem, hstands.separates, rfl⟩

end Ended

/-- **Splitting cuts at the semicolons and loses nothing else.** If a source has tokens, it has
chunks. Put together without their end marks, these are the tokens of the source without the
semicolons and the end mark, each once, in their order and at their places. Two of these tokens are
in the same chunk if and only if there is no semicolon between them. No chunk is empty, and none has
a semicolon in it, or an end mark before its last token. That one is an end mark, in the place of
the separator that stands behind the chunk. -/
theorem split_partitions {source : String} (hscan : Token.scan source = .ok tokens) :
    ∃ chunks, split source = .ok chunks ∧ Partitions tokens chunks := by
  have hscans := Token.scans_of_scanFrom hscan
  have hsplit : split source = .ok (splitFrom [] tokens) := by
    rw [split, hscan]
    rfl
  have hsorted : (tokens.map Token.position).Pairwise (· < ·) :=
    (hscans.places (List.nil_append _).symm rfl).1
  obtain ⟨body, rfl, honly⟩ := hscans.ended
  exact ⟨_, hsplit, partitions_splitFrom hsorted rfl honly⟩

/-- Semicolons in front, in a row and at the end make no chunks, and the one in the text does not
cut. -/
theorem split_partitions_spare_semicolons :
    let source := "; é = 'a;b';; str(é);"
    let tokens : List Token := [⟨.mark .semicolon, 0⟩, ⟨.name "é", 2⟩, ⟨.mark .assign, 5⟩,
      ⟨.text "a;b", 7⟩, ⟨.mark .semicolon, 12⟩, ⟨.mark .semicolon, 13⟩, ⟨.name "str", 15⟩,
      ⟨.mark .leftParen, 18⟩, ⟨.name "é", 19⟩, ⟨.mark .rightParen, 21⟩, ⟨.mark .semicolon, 22⟩,
      ⟨.finish, 23⟩]
    let chunks : List (List Token) :=
      [[⟨.name "é", 2⟩, ⟨.mark .assign, 5⟩, ⟨.text "a;b", 7⟩, ⟨.finish, 12⟩],
        [⟨.name "str", 15⟩, ⟨.mark .leftParen, 18⟩, ⟨.name "é", 19⟩, ⟨.mark .rightParen, 21⟩,
          ⟨.finish, 22⟩]]
    Token.scan source = .ok tokens ∧ split source = .ok chunks ∧ Partitions tokens chunks := by
  intro source tokens chunks
  have hscan : Token.scan source = .ok tokens := by decide +kernel
  have hsplit : split source = .ok chunks := by
    rw [split, hscan]
    rfl
  obtain ⟨others, hothers, hpartitions⟩ := split_partitions hscan
  obtain rfl : chunks = others := Except.ok.inj (hsplit.symm.trans hothers)
  exact ⟨hscan, hsplit, hpartitions⟩

end Statement

end Flowchart
