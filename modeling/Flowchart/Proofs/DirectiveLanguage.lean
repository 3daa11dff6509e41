import Mathlib
import Flowchart.Proofs.DirectivePattern

/-!
# The language of directives

What a directive is, said without its reader: a word in any case and, between parentheses, an
argument and perhaps a slot, with blanks around them. Some bodies are written in more than one way:
blanks may stand inside a bare argument or beside it, and a lone quote in a slot on either side of a
name that is missing. The reader takes exactly what is so written, and all the ways of a body say the
same.
-/

namespace Flowchart

namespace Directive

/-! ### What is written -/

def IsKeyword (word : List Char) : Prop :=
  word.map Char.toLower ∈ [['i', 'n', 'p', 'u', 't'], ['r', 'e', 'a', 'd']]

def IsBlanks (cs : List Char) : Prop := ∀ c ∈ cs, Text.isBlank c

def IsOptionalQuote (cs : List Char) : Prop := cs ∈ [[], ['"'], ['\'']]

def IsSlotName (name : List Char) : Prop :=
  name = [] ∨ ∃ c rest, name = c :: rest ∧ isSlotStart c ∧ ∀ d ∈ rest, isSlotPart d

/-- These characters write this argument. What is quoted stands as it is, whatever it is; what is
not has no blanks at its ends. -/
inductive WritesArgument : Argument → List Char → Prop
  | quoted {quote content} (hquote : quote = '"' ∨ quote = '\'') (hcontent : quote ∉ content) :
      WritesArgument (.quoted content) (quote :: (content ++ [quote]))
  | bare {run} (hrun : ∀ c ∈ run, c ∉ ['"', '\'', ',', '(', ')']) :
      WritesArgument (.bare (Text.trimChars run)) run

inductive WritesSlot : Option (List Char) → List Char → Prop
  | missing : WritesSlot none []
  | named {before opening name closing after} (hbefore : IsBlanks before)
      (hopening : IsOptionalQuote opening) (hname : IsSlotName name)
      (hclosing : IsOptionalQuote closing) (hafter : IsBlanks after) :
      WritesSlot (some name) (',' :: (before ++ (opening ++ (name ++ (closing ++ after)))))

/-- These characters write a directive with this argument and, if there is one, this slot. -/
inductive Writes (argument : Argument) (slot : Option (List Char)) : List Char → Prop
  | intro {word gap before spelling after rest} (hword : IsKeyword word) (hgap : IsBlanks gap)
      (hbefore : IsBlanks before) (hargument : WritesArgument argument spelling)
      (hafter : IsBlanks after) (hslot : WritesSlot slot rest) :
      Writes argument slot
        (word ++ (gap ++ '(' :: (before ++ (spelling ++ (after ++ (rest ++ [')']))))))

/-- The prompt and the name of the variable as written, empty where they are missing. A bare name
with no slot after it is no prompt. -/
def written : Argument → Option (List Char) → List Char × List Char
  | .bare content, none => if isPlainName content then ([], content) else (content, [])
  | .quoted content, slot | .bare content, slot => (content, slot.getD [])

def said (argument : Argument) (slot : Option (List Char)) : Directive :=
  ⟨orDefault (written argument slot).1 "INPUT:", orDefault (written argument slot).2 "x"⟩

/-! ### Blanks, quotes and names -/

variable {cs : List Char} {argument : Argument} {slot : Option (List Char)}

theorem skipBlanks_append {before : List Char} (h : IsBlanks before) (cs : List Char) :
    Text.skipBlanks (before ++ cs) = Text.skipBlanks cs :=
  List.dropWhile_append_of_pos h

theorem exists_blanks (cs : List Char) :
    ∃ before, IsBlanks before ∧ cs = before ++ Text.skipBlanks cs :=
  ⟨cs.takeWhile Text.isBlank, List.all_eq_true.mp List.all_takeWhile,
    List.takeWhile_append_dropWhile.symm⟩

theorem not_isBlank_head (cs : List Char) :
    ∀ c ∈ (Text.skipBlanks cs).head?, ¬ Text.isBlank c := by
  intro c hhead
  have hends := List.head?_dropWhile_not Text.isBlank cs
  rw [← Text.skipBlanks, Option.mem_def.mp hhead] at hends
  simpa using hends

theorem isOptionalQuote_iff : IsOptionalQuote cs ↔ cs = [] ∨ ∃ c, isQuote c ∧ cs = [c] := by
  simp [IsOptionalQuote, isQuote]

theorem exists_optionalQuote (cs : List Char) :
    ∃ quote, IsOptionalQuote quote ∧ cs = quote ++ skipQuote cs := by
  have hnothing : IsOptionalQuote [] := isOptionalQuote_iff.mpr (.inl rfl)
  cases cs with
  | nil => exact ⟨[], hnothing, rfl⟩
  | cons c cs =>
      rw [skipQuote]
      by_cases hquote : isQuote c
      · rw [if_pos hquote]
        exact ⟨[c], isOptionalQuote_iff.mpr (.inr ⟨c, hquote, rfl⟩), rfl⟩
      · rw [if_neg hquote]
        exact ⟨[], hnothing, rfl⟩

/-- What is read of a slot is a name, and the rest follows on it. -/
theorem isSlotName_slotName (cs : List Char) :
    IsSlotName (slotName cs).1 ∧ cs = (slotName cs).1 ++ (slotName cs).2 := by
  cases cs with
  | nil => exact ⟨.inl rfl, rfl⟩
  | cons c cs =>
      by_cases hstart : isSlotStart c
      · have hname : slotName (c :: cs)
            = (c :: cs.takeWhile isSlotPart, cs.dropWhile isSlotPart) := by
          simp [slotName, hstart, isSlotPart_of_isSlotStart hstart]
        rw [hname]
        refine ⟨.inr ⟨c, _, rfl, hstart, List.all_eq_true.mp List.all_takeWhile⟩, ?_⟩
        rw [List.cons_append, List.takeWhile_append_dropWhile]
      · have hname : slotName (c :: cs) = ([], c :: cs) := by simp [slotName, hstart]
        rw [hname]
        exact ⟨.inl rfl, rfl⟩

theorem slotName_append {name : List Char} (hname : IsSlotName name)
    (hrest : ∀ c ∈ cs.head?, ¬ isSlotPart c) : slotName (name ++ cs) = (name, cs) := by
  have hnone : cs.takeWhile isSlotPart = [] ∧ cs.dropWhile isSlotPart = cs := by
    cases cs with
    | nil => exact ⟨rfl, rfl⟩
    | cons c cs => simp [hrest c rfl]
  rcases hname with rfl | ⟨c, rest, rfl, hstart, hparts⟩
  · cases cs with
    | nil => rfl
    | cons c cs =>
        have hstart : ¬ isSlotStart c := by
          intro hstart
          exact hrest c rfl (isSlotPart_of_isSlotStart hstart)
        simp [slotName, hstart]
  · simp [slotName, hstart, isSlotPart_of_isSlotStart hstart, List.takeWhile_append_of_pos hparts,
      List.dropWhile_append_of_pos hparts, hnone]

/-! ### The slot -/

/-- A slot that is read is written before a closing parenthesis. -/
theorem slot?_sound {name : List Char} (h : slot? cs = some name) :
    ∃ slot, WritesSlot (some name) (',' :: slot) ∧ cs = slot ++ [')'] := by
  obtain ⟨before, hbefore, hcs⟩ := exists_blanks cs
  unfold slot? at h
  generalize Text.skipBlanks cs = quoted at *
  obtain ⟨opening, hopening, hquoted⟩ := exists_optionalQuote quoted
  generalize skipQuote quoted = inner at *
  obtain ⟨hname, hinner⟩ := isSlotName_slotName inner
  generalize slotName inner = found at *
  obtain ⟨name, rest⟩ := found
  obtain ⟨closing, hclosing, hrest⟩ := exists_optionalQuote rest
  obtain ⟨after, hafter, hlast⟩ := exists_blanks (skipQuote rest)
  dsimp only at h
  split at h
  · rename_i hend
    cases h
    refine ⟨_, .named hbefore hopening hname hclosing hafter, ?_⟩
    rw [hend] at hlast
    rw [hlast] at hrest
    rw [hcs, hquoted, hinner, hrest]
    simp
  · cases h

section Closing

variable {closing after : List Char}

theorem skipBlanks_skipQuote_closing (hclosing : IsOptionalQuote closing)
    (hafter : IsBlanks after) :
    Text.skipBlanks (skipQuote (closing ++ (after ++ [')']))) = [')'] := by
  have hend : Text.skipBlanks (after ++ [')']) = [')'] := skipBlanks_append hafter [')']
  rcases isOptionalQuote_iff.mp hclosing with rfl | ⟨c, hquote, rfl⟩
  · rwa [List.nil_append, (nothing_before_closing hend).2]
  · rwa [List.singleton_append, skipQuote, if_pos hquote]

theorem not_isSlotPart_closing (hclosing : IsOptionalQuote closing) (hafter : IsBlanks after) :
    ∀ c ∈ (closing ++ (after ++ [')'])).head?, ¬ isSlotPart c := by
  intro c hhead
  rcases isOptionalQuote_iff.mp hclosing with rfl | ⟨d, hquote, rfl⟩
  · cases after with
    | nil =>
        cases hhead
        decide
    | cons d after =>
        cases hhead
        exact not_isSlotPart_of_isBlank (hafter _ List.mem_cons_self)
  · cases hhead
    exact not_isSlotPart_of_isQuote hquote

/-- With neither an opening quote nor a name, the closing quote is taken for the opening one. -/
theorem slot?_closing {before : List Char} (hbefore : IsBlanks before)
    (hclosing : IsOptionalQuote closing) (hafter : IsBlanks after) :
    slot? (before ++ (closing ++ (after ++ [')']))) = some [] := by
  have hend : Text.skipBlanks (after ++ [')']) = [')'] := skipBlanks_append hafter [')']
  have hskipped : Text.skipBlanks (skipQuote (Text.skipBlanks
      (before ++ (closing ++ (after ++ [')']))))) = [')'] := by
    rw [skipBlanks_append hbefore]
    rcases isOptionalQuote_iff.mp hclosing with rfl | ⟨c, hquote, rfl⟩
    · rw [List.nil_append, hend]
      rfl
    · rwa [List.singleton_append, skipBlanks_of_isQuote hquote, skipQuote, if_pos hquote]
  obtain ⟨hnothing, hsame⟩ := nothing_before_closing hskipped
  rw [slot?, hnothing]
  dsimp only
  rw [hsame, if_pos hskipped]

end Closing

/-- A slot that is written is read. -/
theorem slot?_complete {name slot : List Char} (h : WritesSlot (some name) (',' :: slot)) :
    slot? (slot ++ [')']) = some name := by
  cases h with
  | @named before opening _ closing after hbefore hopening hname hclosing hafter =>
  have hfound : ∀ cs, skipQuote (Text.skipBlanks cs) = name ++ (closing ++ (after ++ [')'])) →
      slot? cs = some name := by
    intro cs hinner
    rw [slot?, hinner, slotName_append hname (not_isSlotPart_closing hclosing hafter)]
    exact if_pos (skipBlanks_skipQuote_closing hclosing hafter)
  simp only [List.append_assoc]
  rcases isOptionalQuote_iff.mp hopening with rfl | ⟨c, hquote, rfl⟩
  · rcases hname with rfl | ⟨c, rest, rfl, hstart, -⟩
    · exact slot?_closing hbefore hclosing hafter
    · have hpart := isSlotPart_of_isSlotStart hstart
      apply hfound
      rw [skipBlanks_append hbefore, List.nil_append, List.cons_append, skipBlanks_of_not_isBlank
        fun hblank => not_isSlotPart_of_isBlank hblank hpart]
      exact if_neg fun hquote => not_isSlotPart_of_isQuote hquote hpart
  · apply hfound
    rw [skipBlanks_append hbefore, List.singleton_append, skipBlanks_of_isQuote hquote]
    exact if_pos hquote

/-! ### What follows an argument -/

theorem ofArgument_eq_said (argument : Argument) : ofArgument argument = said argument none := by
  cases argument with
  | quoted content => rfl
  | bare content =>
      by_cases hname : isPlainName content
      · have hne : content.isEmpty = false := by
          cases content with
          | nil => cases hname
          | cons => rfl
        simp [ofArgument, said, written, hname, orDefault, hne, defaultPrompt]
      · simp [ofArgument, said, written, hname, orDefault, defaultPrompt, defaultVariable]

theorem ofSlot_eq_said (argument : Argument) (name : List Char) :
    ofSlot argument name = said argument (some name) := by
  cases argument <;> rfl

/-- What follows an argument that is read is written as it should be. -/
theorem afterArgument_sound {directive : Directive}
    (h : afterArgument argument cs = some directive) :
    ∃ slot after rest, IsBlanks after ∧ WritesSlot slot rest ∧ cs = after ++ (rest ++ [')'])
      ∧ directive = said argument slot := by
  obtain ⟨after, hafter, hcs⟩ := exists_blanks cs
  unfold afterArgument at h
  split at h
  · rename_i hend
    cases h
    rw [hend] at hcs
    exact ⟨none, after, [], hafter, .missing, hcs, ofArgument_eq_said argument⟩
  · rename_i rest hend
    obtain ⟨name, hname, rfl⟩ := Option.map_eq_some_iff.mp h
    obtain ⟨slot, hslot, rfl⟩ := slot?_sound hname
    rw [hend] at hcs
    exact ⟨some name, after, _, hafter, hslot, hcs, ofSlot_eq_said argument name⟩
  · cases h

theorem WritesSlot.cases_rest {rest : List Char} (h : WritesSlot slot rest) :
    slot = none ∧ rest = [] ∨ ∃ name more, slot = some name ∧ rest = ',' :: more := by
  cases h with
  | missing => exact .inl ⟨rfl, rfl⟩
  | named => exact .inr ⟨_, _, rfl, rfl⟩

/-- What is written after an argument is read. -/
theorem afterArgument_complete {after rest : List Char} (hafter : IsBlanks after)
    (hslot : WritesSlot slot rest) :
    afterArgument argument (after ++ (rest ++ [')'])) = some (said argument slot) := by
  rw [afterArgument, skipBlanks_append hafter]
  rcases hslot.cases_rest with ⟨rfl, rfl⟩ | ⟨name, more, rfl, rfl⟩
  · exact congrArg some (ofArgument_eq_said argument)
  · rw [List.cons_append, skipBlanks_of_not_isBlank (by decide)]
    change (slot? (more ++ [')'])).map (ofSlot argument) = _
    rw [slot?_complete hslot, Option.map_some, ofSlot_eq_said]

/-! ### The argument -/

theorem trimChars_append {after : List Char} (hafter : IsBlanks after) (run : List Char) :
    Text.trimChars (run ++ after) = Text.trimChars run := by
  have hreverse : ∀ c ∈ after.reverse, Text.isBlank c := fun c hmem =>
    hafter c (List.mem_reverse.mp hmem)
  have hnothing : Text.skipBlanks after = [] := List.dropWhile_eq_nil_iff.mpr hafter
  have hskip : Text.skipBlanks (run ++ after)
      = if (Text.skipBlanks run).isEmpty then [] else Text.skipBlanks run ++ after := by
    rw [← hnothing]
    exact List.dropWhile_append
  rw [Text.trimChars, hskip, Text.trimChars]
  cases Text.skipBlanks run with
  | nil => rfl
  | cons c cs =>
      rw [List.isEmpty_cons, if_neg Bool.false_ne_true, Text.skipBlanksAtEnd, List.reverse_append,
        skipBlanks_append hreverse]
      rfl

theorem skipBlanks_before {stop : Char} (hstop : ¬ Text.isBlank stop) (run more : List Char) :
    Text.skipBlanks (run ++ stop :: more) = Text.skipBlanks run ++ stop :: more := by
  have hskip : (stop :: more).dropWhile Text.isBlank = stop :: more :=
    skipBlanks_of_not_isBlank hstop more
  rw [Text.skipBlanks, List.dropWhile_append, hskip, Text.skipBlanks]
  cases run.dropWhile Text.isBlank <;> rfl

theorem fromArgument_bare {run more : List Char} {stop : Char} (hrun : ∀ c ∈ run, isBare c)
    (hstop : stop ∈ [',', ')']) :
    fromArgument (run ++ stop :: more)
      = afterArgument (.bare (Text.skipBlanksAtEnd run)) (stop :: more) := by
  have hbare : ¬ isBare stop := by
    rw [isBare_iff, not_not]
    fin_cases hstop <;> decide
  have hquote : ∀ c ∈ (run ++ stop :: more).head?, ¬ isQuote c := by
    intro c hhead hquote
    cases run with
    | nil =>
        cases hhead
        fin_cases hstop <;> cases hquote
    | cons d run =>
        cases hhead
        exact not_isBare_of_isQuote hquote (hrun _ List.mem_cons_self)
  rw [fromArgument_of_not_isQuote hquote, List.takeWhile_append_of_pos hrun,
    List.dropWhile_append_of_pos hrun, List.takeWhile_cons_of_neg hbare,
    List.dropWhile_cons_of_neg hbare, List.append_nil]

/-- Arguments that are written are read, with what follows them. -/
theorem fromArgument_complete {before spelling after more : List Char} {stop : Char}
    (hbefore : IsBlanks before) (hargument : WritesArgument argument spelling)
    (hafter : IsBlanks after) (hstop : stop ∈ [',', ')']) :
    fromArgument (Text.skipBlanks (before ++ (spelling ++ (after ++ stop :: more))))
      = afterArgument argument (after ++ stop :: more) := by
  rw [skipBlanks_append hbefore]
  cases hargument with
  | @quoted quote content hquote hcontent =>
      have hquote : isQuote quote := by simpa [isQuote] using hquote
      have hinside : ∀ c ∈ content, (c != quote) = true := by
        intro c hmem
        rw [bne_iff_ne]
        rintro rfl
        exact hcontent hmem
      rw [List.cons_append, skipBlanks_of_isQuote hquote, fromArgument_of_isQuote hquote,
        afterQuoted, List.append_assoc, List.dropWhile_append_of_pos hinside,
        List.takeWhile_append_of_pos hinside]
      simp
  | bare hrun =>
      have hblank : ¬ Text.isBlank stop := by fin_cases hstop <;> decide
      have hbare : ∀ c ∈ Text.skipBlanks (spelling ++ after), isBare c := by
        intro c hmem
        rcases List.mem_append.mp ((List.dropWhile_sublist _).mem hmem) with hmem | hmem
        · exact isBare_iff.mpr (hrun c hmem)
        · exact isBare_of_isBlank (hafter c hmem)
      have hskip : Text.skipBlanks (after ++ stop :: more) = Text.skipBlanks (stop :: more) :=
        skipBlanks_append hafter (stop :: more)
      rw [← List.append_assoc, skipBlanks_before hblank, fromArgument_bare hbare hstop,
        ← Text.trimChars, trimChars_append hafter, afterArgument, afterArgument, hskip]

/-- Arguments that are read are written, with what follows them. -/
theorem fromArgument_sound {directive : Directive} (hstart : ∀ c ∈ cs.head?, ¬ Text.isBlank c)
    (h : fromArgument cs = some directive) :
    ∃ argument spelling tail, WritesArgument argument spelling ∧ cs = spelling ++ tail
      ∧ afterArgument argument tail = some directive := by
  by_cases hquote : ∀ c ∈ cs.head?, ¬ isQuote c
  · rw [fromArgument_of_not_isQuote hquote] at h
    have hrun : ∀ c ∈ cs.takeWhile isBare, c ∉ ['"', '\'', ',', '(', ')'] := fun c hmem =>
      isBare_iff.mp (List.all_eq_true.mp List.all_takeWhile c hmem)
    have hskip : Text.skipBlanks (cs.takeWhile isBare) = cs.takeWhile isBare := by
      cases cs with
      | nil => rfl
      | cons c cs =>
          by_cases hbare : isBare c
          · rw [List.takeWhile_cons_of_pos hbare, skipBlanks_of_not_isBlank (hstart c rfl)]
          · rw [List.takeWhile_cons_of_neg hbare]
            rfl
    refine ⟨_, _, _, .bare hrun, List.takeWhile_append_dropWhile.symm, ?_⟩
    rwa [Text.trimChars, hskip]
  · obtain ⟨c, hhead, hc⟩ : ∃ c ∈ cs.head?, isQuote c := by simpa using hquote
    obtain ⟨cs, rfl⟩ := List.head?_eq_some_iff.mp hhead
    rw [fromArgument_of_isQuote hc, afterQuoted] at h
    split at h
    · cases h
    · rename_i d after hrest
      have hends := List.head?_dropWhile_not (· != c) cs
      have hd : d = c := by simpa [hrest] using hends
      have hcs : cs = cs.takeWhile (· != c) ++ c :: after := by
        rw [← hd, ← hrest, hd, List.takeWhile_append_dropWhile]
      have hcontent : c ∉ cs.takeWhile (· != c) := by
        intro hmem
        have hne := List.all_eq_true.mp List.all_takeWhile c hmem
        simp at hne
      refine ⟨_, _, after, .quoted ?_ hcontent, ?_, h⟩
      · simpa [isQuote] using hc
      · simpa using hcs

/-! ### Directives -/

theorem afterWord?_append {word lower : List Char} (h : word.map Char.toLower = lower)
    (cs : List Char) : afterWord? lower (word ++ cs) = some cs := by
  have hlength : lower.length = word.length := by rw [← h, List.length_map]
  rw [afterWord?, hlength, List.take_left, List.drop_left, if_pos h]

theorem afterKeyword?_append {word : List Char} (hword : IsKeyword word) (cs : List Char) :
    afterKeyword? (word ++ cs) = some cs := by
  rw [IsKeyword, List.mem_pair] at hword
  rw [afterKeyword?]
  rcases hword with hinput | hread
  · rw [afterWord?_append hinput]
    rfl
  · have hsome := afterWord?_append hread cs
    rcases afterWord?_input_or_read (word ++ cs) with hnone | hnone
    · rw [hnone, hsome]
      rfl
    · rw [hnone] at hsome
      cases hsome

theorem afterKeyword?_sound {after : List Char} (h : afterKeyword? cs = some after) :
    ∃ word, IsKeyword word ∧ cs = word ++ after := by
  have hword : ∀ lower ∈ [['i', 'n', 'p', 'u', 't'], ['r', 'e', 'a', 'd']],
      afterWord? lower cs = some after → ∃ word, IsKeyword word ∧ cs = word ++ after := by
    intro lower hlower hafter
    unfold afterWord? at hafter
    split at hafter
    · rename_i hmap
      cases hafter
      refine ⟨cs.take lower.length, ?_, (List.take_append_drop _ _).symm⟩
      rwa [IsKeyword, hmap]
    · cases hafter
  unfold afterKeyword? at h
  cases hinput : afterWord? ['i', 'n', 'p', 'u', 't'] cs with
  | some rest =>
      rw [hinput] at h
      cases h
      exact hword _ (by simp) hinput
  | none =>
      rw [hinput] at h
      exact hword _ (by simp) h

/-- Whatever is written as a directive is read as what it says. -/
theorem read?_of_writes {body : String} (h : Writes argument slot (Text.trimChars body.toList)) :
    read? body = some (said argument slot) := by
  generalize hcs : Text.trimChars body.toList = cs at h
  cases h with
  | @intro word gap before spelling after rest hword hgap hbefore hargument hafter hslot =>
  obtain ⟨stop, more, hstop, hrest⟩ :
      ∃ stop more, stop ∈ [',', ')'] ∧ rest ++ [')'] = stop :: more := by
    rcases hslot.cases_rest with ⟨-, rfl⟩ | ⟨name, more, -, rfl⟩
    · exact ⟨')', [], by decide, rfl⟩
    · exact ⟨',', _, by decide, rfl⟩
  rw [read?_eq_fromOpening, hcs, afterKeyword?_append hword, Option.bind_some,
    skipBlanks_append hgap, skipBlanks_of_not_isBlank (by decide), fromOpening, hrest,
    fromArgument_complete hbefore hargument hafter hstop, ← hrest,
    afterArgument_complete hafter hslot]

/-- Whatever is read as a directive is written as one. -/
theorem exists_writes {body : String} {directive : Directive} (h : read? body = some directive) :
    ∃ argument slot, Writes argument slot (Text.trimChars body.toList)
      ∧ directive = said argument slot := by
  rw [read?_eq_fromOpening] at h
  obtain ⟨opening, hkeyword, h⟩ := Option.bind_eq_some_iff.mp h
  obtain ⟨word, hword, hcs⟩ := afterKeyword?_sound hkeyword
  obtain ⟨gap, hgap, hopening⟩ := exists_blanks opening
  unfold fromOpening at h
  split at h
  · rename_i inner hinner
    obtain ⟨before, hbefore, hinside⟩ := exists_blanks inner
    obtain ⟨argument, spelling, tail, hargument, hargued, htail⟩ :=
      fromArgument_sound (not_isBlank_head inner) h
    obtain ⟨slot, after, rest, hafter, hslot, hrest, hsaid⟩ := afterArgument_sound htail
    refine ⟨argument, slot, ?_, hsaid⟩
    rw [hcs, hopening, hinner, hinside, hargued, hrest]
    exact .intro hword hgap hbefore hargument hafter hslot
  · cases h

/-! ### Bare arguments and plain names -/

def HasNoBlankEnds (cs : List Char) : Prop :=
  (∀ c ∈ cs.head?, ¬ Text.isBlank c) ∧ ∀ c ∈ cs.getLast?, ¬ Text.isBlank c

theorem hasNoBlankEnds_trimChars (cs : List Char) : HasNoBlankEnds (Text.trimChars cs) := by
  have hlast : ∀ c ∈ (Text.trimChars cs).getLast?, ¬ Text.isBlank c := by
    intro c hmem
    rw [Text.trimChars, Text.skipBlanksAtEnd, List.getLast?_reverse] at hmem
    exact not_isBlank_head _ c hmem
  refine ⟨fun c hmem => ?_, hlast⟩
  obtain ⟨rest, htrim⟩ := List.head?_eq_some_iff.mp hmem
  have hprefix : Text.trimChars cs <+: Text.skipBlanks cs :=
    List.rdropWhile_prefix Text.isBlank _
  rw [htrim] at hprefix
  obtain ⟨more, hmore⟩ := hprefix
  refine not_isBlank_head cs c ?_
  rw [← hmore]
  rfl

theorem Writes.hasNoBlankEnds {content : List Char} (h : Writes (.bare content) slot cs) :
    HasNoBlankEnds content := by
  obtain ⟨-, -, -, hargument, -, -⟩ := h
  cases hargument
  exact hasNoBlankEnds_trimChars _

theorem trimChars_of_ends {first last : Char} (hfirst : ¬ Text.isBlank first)
    (hlast : ¬ Text.isBlank last) (inner : List Char) :
    Text.trimChars (first :: (inner ++ [last])) = first :: (inner ++ [last]) := by
  rw [Text.trimChars, skipBlanks_of_not_isBlank hfirst, Text.skipBlanksAtEnd, List.reverse_cons,
    List.reverse_append, List.reverse_singleton, List.cons_append, List.cons_append,
    skipBlanks_of_not_isBlank hlast]
  simp

theorem isSlotName_of_isPlainName {name : List Char} (h : isPlainName name) : IsSlotName name := by
  cases name with
  | nil => exact .inl rfl
  | cons c rest =>
      simp only [isPlainName, Bool.and_eq_true, Bool.or_eq_true, decide_eq_true_eq,
        List.all_eq_true] at h
      obtain ⟨hstart, hparts⟩ := h
      refine .inr ⟨c, rest, rfl, ?_, fun d hmem => ?_⟩
      · rcases hstart with halpha | rfl
        · simp [isSlotStart, halpha]
        · rfl
      · rcases hparts d hmem with halnum | rfl
        · rw [Char.isAlphanum, Bool.or_eq_true] at halnum
          rcases halnum with halpha | hdigit
          · simp [isSlotPart, isSlotStart, halpha]
          · simp [isSlotPart, hdigit]
        · rfl

theorem orDefault_toList (s default : String) :
    orDefault s.toList default = if s = "" then default else s := by
  simp [orDefault]

/-- A question in its plain form is read, whatever its prompt, if no quote ends that. -/
theorem read?_input {prompt name : String} (hprompt : '"' ∉ prompt.toList)
    (hname : IsSlotName name.toList) :
    read? ("input(\"" ++ prompt ++ "\", " ++ name ++ ")")
      = some ⟨orDefault prompt.toList "INPUT:", orDefault name.toList "x"⟩ := by
  apply @read?_of_writes (.quoted prompt.toList) (some name.toList)
  have hcs : ("input(\"" ++ prompt ++ "\", " ++ name ++ ")").toList
      = 'i' :: (['n', 'p', 'u', 't', '(', '"'] ++ prompt.toList ++ ['"', ',', ' '] ++ name.toList
        ++ [')']) := by
    simp
  have hnothing : IsOptionalQuote [] := isOptionalQuote_iff.mpr (.inl rfl)
  have hnoBlank : IsBlanks [] := fun c hmem => absurd hmem List.not_mem_nil
  have hblank : IsBlanks [' '] := fun c hmem => by rw [List.mem_singleton.mp hmem]; rfl
  have hword : IsKeyword ['i', 'n', 'p', 'u', 't'] := List.mem_cons_self
  have hwrites := Writes.intro hword hnoBlank hnoBlank (.quoted (.inl rfl) hprompt) hnoBlank
    (.named hblank hnothing hname hnothing hnoBlank)
  rw [hcs, trimChars_of_ends (by decide) (by decide)]
  simpa using hwrites

/-- **The language of directives.** The reader finds what the groups of the pattern hold, and takes
a body exactly if a directive is written in it. In whatever way one is, that is what is read: what
stands between quotes as it is, and a bare argument without blanks at its ends. -/
theorem directive_reads_what_is_written :
    (∀ body, read? body = (pattern.match? (Text.trimChars body.toList)).map ofGroups
      ∧ ((∃ directive, read? body = some directive)
        ↔ ∃ argument slot, Writes argument slot (Text.trimChars body.toList))
      ∧ ∀ argument slot, Writes argument slot (Text.trimChars body.toList) →
        read? body = some (said argument slot)
          ∧ ∀ content, argument = .bare content → HasNoBlankEnds content)
    ∧ ∀ prompt name : String, '"' ∉ prompt.toList → isPlainName name.toList →
      read? ("input(\"" ++ prompt ++ "\", " ++ name ++ ")")
        = some ⟨if prompt = "" then "INPUT:" else prompt, name⟩ := by
  refine ⟨fun body => ⟨read?_eq_match? body, ⟨?_, ?_⟩, fun argument slot h => ?_⟩, ?_⟩
  · rintro ⟨directive, h⟩
    obtain ⟨argument, slot, hwrites, -⟩ := exists_writes h
    exact ⟨argument, slot, hwrites⟩
  · rintro ⟨argument, slot, hwrites⟩
    exact ⟨_, read?_of_writes hwrites⟩
  · refine ⟨read?_of_writes h, ?_⟩
    rintro content rfl
    exact h.hasNoBlankEnds
  · intro prompt name hprompt hname
    rw [read?_input hprompt (isSlotName_of_isPlainName hname)]
    have hne : name ≠ "" := by
      rintro rfl
      cases hname
    rw [orDefault_toList, orDefault_toList, if_neg hne]

/-- Commas, parentheses and semicolons may stand in a prompt between quotes. -/
theorem directive_with_marks_in_its_prompt :
    read? ("input(\"" ++ "a, (b); c" ++ "\", " ++ "total" ++ ")")
      = some ⟨"a, (b); c", "total"⟩ :=
  directive_reads_what_is_written.2 "a, (b); c" "total" (by decide) (by decide)

end Directive

end Flowchart
