import Flowchart.Proofs.Lexemes
import Flowchart.Proofs.Relexing

/-!
# Quoted texts and the scanner

Every text has a lexeme. The one it is printed as is a lexeme only if the scanner knows the escapes
in it: it knows those of the quote, the backslash, the line feed and the tab, and no other. A text
with another character that does not show is printed all the same, and the scanner refuses what is
printed at the first escape that it does not know.
-/

namespace Flowchart

open Token (IsPlain Quotes escaped? escapeLetters)

namespace Token

theorem exists_quotes (content : List Char) : ∃ spelling, Quotes '"' content spelling := by
  induction content with
  | nil => exact ⟨[], .nil⟩
  | cons c content ih =>
      obtain ⟨spelling, hquotes⟩ := ih
      by_cases hescape : c = '"' ∨ c = '\\'
      · have hletter : (c, c) ∈ escapeLetters := by rcases hescape with rfl | rfl <;> decide
        exact ⟨_, .escape hletter hquotes⟩
      · rw [not_or] at hescape
        exact ⟨_, .plain hescape.1 hescape.2 hquotes⟩

/-- What is not plain is printed as an escape that the scanner does not know. -/
theorem quotedChar_of_not_isPlain {c : Char} (h : ¬ IsPlain c) :
    ∃ letter more, Text.quotedChar c = '\\' :: letter :: more ∧ letter ∈ ['r', '0', 'u'] := by
  unfold IsPlain at h
  unfold Text.quotedChar at *
  split at h
  · exact absurd (.inr (by decide)) h
  · exact absurd (.inr (by decide)) h
  · exact absurd (.inr (by decide)) h
  · exact ⟨'r', _, rfl, by decide⟩
  · exact absurd (.inr (by decide)) h
  · exact ⟨'0', _, rfl, by decide⟩
  · split at h
    · exact absurd (.inl rfl) h
    · rename_i hvisible
      rw [if_neg hvisible]
      exact ⟨'u', _, rfl, by decide⟩

/-- A quotation is scanned as the text it quotes. -/
theorem scan_of_quotes {content spelling : List Char} {source : String}
    (h : Quotes '"' content spelling) (hsource : source.toList = '"' :: (spelling ++ ['"'])) :
    scan source = .ok [⟨.text (String.ofList content), 0⟩, ⟨.finish, source.utf8ByteSize⟩] := by
  have hlexeme : lexeme 0 '"' (spelling ++ ['"'])
      = .ok ⟨.text (String.ofList content), source.toList, []⟩ := by
    rw [lexeme_of_quote (.inl rfl), quotation_of_quotes (by decide) h, hsource]
    rfl
  rw [scan, hsource, scanFrom_lexeme (by decide) hlexeme, Nat.zero_add, width_toList, scanFrom_eq]
  rfl

/-- An escape that means nothing is complained of where it stands. -/
theorem scan_of_unknown {content spelling : List Char} {letter : Char} {more : List Char}
    {source : String} (h : Quotes '"' content spelling)
    (hletter : ∀ meant, (letter, meant) ∉ escapeLetters)
    (hsource : source.toList = '"' :: (spelling ++ '\\' :: letter :: more)) :
    scan source = .error ⟨width ('"' :: spelling), .unknownEscape letter⟩ := by
  have hlexeme : lexeme 0 '"' (spelling ++ '\\' :: letter :: more)
      = .error ⟨width ('"' :: spelling), .unknownEscape letter⟩ := by
    rw [lexeme_of_quote (.inl rfl), quotation_of_unknown (by decide) h hletter]
    rfl
  rw [scan, hsource, scanFrom_stray (by decide) hlexeme]

end Token

theorem toList_render_text (s : String) :
    (Expr.literal (.text s)).render.toList = '"' :: (s.toList.flatMap Text.quotedChar ++ ['"']) := by
  rw [Expr.render, Expr.renderAt, Value.literal, Text.quoted, String.toList_ofList]
  rfl

/-- A plain text is read back from its printed form. -/
theorem scan_render_of_isPlain {s : String} (hplain : ∀ c ∈ s.toList, IsPlain c) :
    Token.scan (Expr.literal (.text s)).render
      = .ok [⟨.text s, 0⟩, ⟨.finish, (Expr.literal (.text s)).render.utf8ByteSize⟩] := by
  have hscan := Token.scan_of_quotes (Token.quotes_of_isPlain hplain) (toList_render_text s)
  rwa [String.ofList_toList] at hscan

/-- The printed form of any other text is complained of, at its first character that is not
plain. -/
theorem scan_render_of_not_isPlain {s : String} {front back : List Char} {c : Char}
    (hs : s.toList = front ++ c :: back) (hfront : ∀ d ∈ front, IsPlain d) (hc : ¬ IsPlain c) :
    ∃ letter ∈ ['r', '0', 'u'], (Text.quotedChar c)[1]? = some letter
      ∧ Token.scan (Expr.literal (.text s)).render
        = .error ⟨1 + width (front.flatMap Text.quotedChar), .unknownEscape letter⟩ := by
  obtain ⟨letter, more, hquoted, hletter⟩ := Token.quotedChar_of_not_isPlain hc
  have hunknown : ∀ letter ∈ ['r', '0', 'u'], ∀ meant, (letter, meant) ∉ escapeLetters := by
    simp [escapeLetters]
  have hprinted : (Expr.literal (.text s)).render.toList
      = '"' :: (front.flatMap Text.quotedChar
        ++ '\\' :: letter :: (more ++ back.flatMap Text.quotedChar ++ ['"'])) := by
    rw [toList_render_text, hs, List.flatMap_append, List.flatMap_cons, hquoted]
    simp
  refine ⟨letter, hletter, by rw [hquoted]; rfl, ?_⟩
  exact Token.scan_of_unknown (Token.quotes_of_isPlain hfront) (hunknown letter hletter) hprinted

/-- **Printed texts.** Every text stands in some source as its only token. The text that is printed
for it is such a source exactly if each of its characters is printed as itself or as the escape of a
quote, a backslash, a line feed or a tab. Otherwise the scanner stops at the first character that is
not, since it knows no escape that begins as the printed one does. -/
theorem printed_text_is_read_back_iff_plain (s : String) :
    (∃ source, Token.scan source = .ok [⟨.text s, 0⟩, ⟨.finish, source.utf8ByteSize⟩])
      ∧ (Token.scan (Expr.literal (.text s)).render
          = .ok [⟨.text s, 0⟩, ⟨.finish, (Expr.literal (.text s)).render.utf8ByteSize⟩]
        ↔ ∀ c ∈ s.toList, IsPlain c)
      ∧ ∀ front c back, s.toList = front ++ c :: back → (∀ d ∈ front, IsPlain d) → ¬ IsPlain c →
        ∃ letter ∈ ['r', '0', 'u'], (Text.quotedChar c)[1]? = some letter
          ∧ Token.scan (Expr.literal (.text s)).render
            = .error ⟨1 + width (front.flatMap Text.quotedChar), .unknownEscape letter⟩ := by
  refine ⟨?_, ⟨fun h => ?_, scan_render_of_isPlain⟩, fun _ _ _ => scan_render_of_not_isPlain⟩
  · obtain ⟨spelling, hquotes⟩ := Token.exists_quotes s.toList
    have hscan := Token.scan_of_quotes hquotes
      (String.toList_ofList (l := '"' :: (spelling ++ ['"'])))
    rw [String.ofList_toList] at hscan
    exact ⟨_, hscan⟩
  · cases hfirst : s.toList.find? fun c => ¬ IsPlain c with
    | none => simpa using hfirst
    | some c =>
        obtain ⟨hc, front, back, hs, hfront⟩ := List.find?_eq_some_iff_append.mp hfirst
        have hplain : ∀ d ∈ front, IsPlain d := by simpa using hfront
        obtain ⟨letter, -, -, hscan⟩ :=
          scan_render_of_not_isPlain hs hplain (by simpa using hc)
        rw [hscan] at h
        cases h

/-- A carriage return is printed as an escape that the scanner does not know. -/
theorem printed_carriage_return_is_refused :
    (Expr.literal (.text "\r")).render = "\"\\r\""
      ∧ Token.scan (Expr.literal (.text "\r")).render = .error ⟨1, .unknownEscape 'r'⟩ := by
  obtain ⟨letter, -, hletter, hscan⟩ :=
    @scan_render_of_not_isPlain "\r" [] [] '\r' rfl (by simp) (by decide)
  cases hletter
  exact ⟨rfl, hscan⟩

end Flowchart
