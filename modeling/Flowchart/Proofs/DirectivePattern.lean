import Mathlib
import Flowchart.Directive
import Flowchart.Proofs.Pattern

/-!
# The pattern of a directive

A directive is described by one pattern with five groups, in which blanks may be taken by more than
one part, quotes may be left out and one run takes as little as it can. The reader never goes back.
It finds what the groups hold in the first match of the pattern, and nothing where there is none.
-/

namespace Flowchart

namespace Directive

open Pattern

def quotedPattern (quote : Char) (number : Nat) : Pattern :=
  seq (exactly quote) (seq (group number (run (· != quote) true)) (exactly quote))

def argumentPattern : Pattern :=
  either (quotedPattern '"' 1) (either (quotedPattern '\'' 2) (group 3 (run isBare false)))

def namePattern : Pattern := seq (one isSlotStart) (run isSlotPart true)

def quotedNamePattern : Pattern :=
  seq (optional (one isQuote)) <| seq (optional (group 5 namePattern)) <|
    seq (optional (one isQuote)) blanks

def slotPattern : Pattern := seq (exactly ',') (seq blanks quotedNamePattern)

def endPattern : Pattern := seq blanks (seq (optional (group 4 slotPattern)) (exactly ')'))

def pattern : Pattern :=
  seq (either (word ['i', 'n', 'p', 'u', 't']) (word ['r', 'e', 'a', 'd'])) <| seq blanks <|
    seq (exactly '(') <| seq blanks <| seq argumentPattern endPattern

/-- The directive of what the groups hold: a quoted argument in the first or the second, a bare one
in the third, a slot in the fourth and the name of the slot in the fifth. -/
def ofGroups (groups : List (Nat × List Char)) : Directive :=
  let quoted := groups.lookup 1 <|> groups.lookup 2
  let bare := groups.lookup 3
  let (prompt, variableName) :=
    match quoted, bare with
    | none, some content =>
      if (groups.lookup 4).isNone && isPlainName content then (none, some content)
      else (some content, groups.lookup 5)
    | some content, _ => (some content, groups.lookup 5)
    | none, none => (none, groups.lookup 5)
  ⟨((prompt.filter (!·.isEmpty)).map String.ofList).getD defaultPrompt,
    (variableName.map String.ofList).getD defaultVariable⟩

section Characters

variable {c : Char}

theorem isQuote_iff : isQuote c ↔ c ∈ ['"', '\''] := by
  simp [isQuote]

theorem isBare_iff : isBare c ↔ c ∉ ['"', '\'', ',', '(', ')'] := by
  simp [isBare, isQuote, and_assoc]

theorem not_isQuote_of_isBlank (h : Text.isBlank c) : ¬ isQuote c := by
  intro hquote
  rw [isQuote_iff] at hquote
  fin_cases hquote <;> cases h

theorem not_isBare_of_isQuote (h : isQuote c) : ¬ isBare c := by
  rw [isQuote_iff] at h
  fin_cases h <;> decide

theorem isBare_of_isBlank (h : Text.isBlank c) : isBare c := by
  rw [isBare_iff]
  intro hmem
  fin_cases hmem <;> cases h

theorem not_isSlotPart_of_isBlank (h : Text.isBlank c) : ¬ isSlotPart c := by
  intro hpart
  simp only [Text.isBlank, Text.CodeRanges.contains, Text.blankRanges, List.any_cons, List.any_nil,
    Bool.or_eq_true, Bool.and_eq_true, decide_eq_true_eq, Bool.or_false] at h
  simp only [isSlotPart, isSlotStart, Char.isAlpha, Char.isUpper, Char.isLower, Char.isDigit,
    Bool.or_eq_true, Bool.and_eq_true, decide_eq_true_eq, ge_iff_le,
    UInt32.le_iff_toNat_le] at hpart
  simp only [← Char.toNat_inj, Char.reduceToNat, Char.reduceVal, UInt32.reduceToNat] at h hpart
  have hval : c.val.toNat = c.toNat := rfl
  omega

theorem not_isSlotPart_of_isQuote (h : isQuote c) : ¬ isSlotPart c := by
  intro hpart
  rw [isQuote_iff] at h
  fin_cases h <;> cases hpart

theorem isSlotPart_of_isSlotStart (h : isSlotStart c) : isSlotPart c := by
  rw [isSlotPart, h, Bool.true_or]

theorem not_isSlotStart_of_isBlank (h : Text.isBlank c) : ¬ isSlotStart c := by
  intro hstart
  exact not_isSlotPart_of_isBlank h (isSlotPart_of_isSlotStart hstart)

theorem not_isSlotStart_of_isQuote (h : isQuote c) : ¬ isSlotStart c := by
  intro hstart
  exact not_isSlotPart_of_isQuote h (isSlotPart_of_isSlotStart hstart)

theorem skipBlanks_of_isBlank (h : Text.isBlank c) (cs : List Char) :
    Text.skipBlanks (c :: cs) = Text.skipBlanks cs :=
  List.dropWhile_cons_of_pos h

theorem skipBlanks_of_not_isBlank (h : ¬ Text.isBlank c) (cs : List Char) :
    Text.skipBlanks (c :: cs) = c :: cs :=
  List.dropWhile_cons_of_neg h

theorem skipBlanks_of_isQuote (h : isQuote c) (cs : List Char) :
    Text.skipBlanks (c :: cs) = c :: cs :=
  skipBlanks_of_not_isBlank (fun hblank => not_isQuote_of_isBlank hblank h) cs

end Characters

/-! ### The slot -/

variable {β : Type} {groups : List (Nat × List Char)} {cs : List Char}
variable {goOn : Place → Option β}

/-- One can go on in no other place than before the closing parenthesis. -/
def WantsClosing (goOn : Place → Option β) : Prop :=
  ∀ place, place.rest ≠ [')'] → goOn place = none

def closing (goOn : Place → Option β) (groups : List (Nat × List Char)) (cs : List Char) :
    Option β :=
  if Text.skipBlanks cs = [')'] then goOn ⟨groups, [')']⟩ else none

/-- The groups once the name of the slot is matched; a name that is missing is in no group. -/
def withName (name : List Char) (groups : List (Nat × List Char)) : List (Nat × List Char) :=
  if name = [] then groups else (5, name) :: groups

theorem closing_of_not_blank {c : Char} (hblank : ¬ Text.isBlank c) (hc : c ≠ ')') :
    closing goOn groups (c :: cs) = none := by
  simp [closing, skipBlanks_of_not_isBlank hblank, hc]

/-- Before a closing parenthesis there is neither a quote nor a name. -/
theorem nothing_before_closing (h : Text.skipBlanks cs = [')']) :
    slotName cs = ([], cs) ∧ skipQuote cs = cs := by
  cases cs with
  | nil => cases h
  | cons c cs =>
      have hc : ¬ isSlotStart c ∧ ¬ isQuote c := by
        by_cases hblank : Text.isBlank c
        · exact ⟨not_isSlotStart_of_isBlank hblank, not_isQuote_of_isBlank hblank⟩
        · rw [skipBlanks_of_not_isBlank hblank] at h
          obtain ⟨rfl, -⟩ := List.cons.inj h
          decide
      simp [slotName, skipQuote, hc]

theorem first?_blanks (hclosing : WantsClosing goOn) :
    blanks.first? goOn ⟨groups, cs⟩ = closing goOn groups cs := by
  have hgreedy : blanks.first? goOn ⟨groups, cs⟩ = goOn ⟨groups, Text.skipBlanks cs⟩ := by
    refine first?_greedy fun d rest hblank _ => hclosing _ fun hrest => ?_
    obtain ⟨rfl, -⟩ := List.cons.inj hrest
    exact absurd hblank (by decide)
  rw [hgreedy, closing]
  split
  · rename_i hrest
    rw [hrest]
  · rename_i hrest
    exact hclosing _ hrest

theorem first?_quote_blanks (hclosing : WantsClosing goOn) :
    (seq (optional (one isQuote)) blanks).first? goOn ⟨groups, cs⟩
      = closing goOn groups (skipQuote cs) := by
  rw [first?_seq, first?_optional, first?_blanks hclosing]
  cases cs with
  | nil => rfl
  | cons c cs =>
      rw [first?_one, first?_blanks hclosing, skipQuote]
      by_cases hquote : isQuote c
      · have hnone : closing goOn groups (c :: cs) = none := by
          refine closing_of_not_blank (fun hblank => not_isQuote_of_isBlank hblank hquote) ?_
          rintro rfl
          cases hquote
        rw [if_pos hquote, if_pos hquote, hnone]
        cases closing goOn groups cs <;> rfl
      · rw [if_neg hquote, if_neg hquote]
        rfl

/-- A name goes on as long as it can: no part of it is a quote, a blank or a closing parenthesis. -/
theorem closing_of_isSlotPart {c : Char} (hpart : isSlotPart c) :
    closing goOn groups (skipQuote (c :: cs)) = none := by
  have hquote : ¬ isQuote c := fun hquote => not_isSlotPart_of_isQuote hquote hpart
  rw [skipQuote, if_neg hquote]
  refine closing_of_not_blank (fun hblank => not_isSlotPart_of_isBlank hblank hpart) ?_
  rintro rfl
  cases hpart

def closingName (goOn : Place → Option β) (groups : List (Nat × List Char)) (cs : List Char) :
    Option β :=
  closing goOn (withName (slotName cs).1 groups) (skipQuote (slotName cs).2)

theorem closingName_of_closing (h : Text.skipBlanks cs = [')']) :
    closingName goOn groups cs = closing goOn groups cs := by
  obtain ⟨hname, hquote⟩ := nothing_before_closing h
  simp [closingName, hname, hquote, withName]

theorem closingName_of_not_isSlotStart {c : Char} (hstart : ¬ isSlotStart c) :
    closingName goOn groups (c :: cs) = closing goOn groups (skipQuote (c :: cs)) := by
  simp [closingName, slotName, hstart, withName]

/-- The pattern of the name in a slot matches what is read as one. -/
theorem first?_name (hclosing : WantsClosing goOn) :
    (seq (optional (group 5 namePattern)) (seq (optional (one isQuote)) blanks)).first? goOn
        ⟨groups, cs⟩
      = closingName goOn groups cs := by
  rw [first?_seq, first?_optional, first?_group, namePattern, first?_seq,
    first?_quote_blanks hclosing]
  cases cs with
  | nil => rfl
  | cons c cs =>
      rw [first?_one]
      by_cases hstart : isSlotStart c
      · have hpart := isSlotPart_of_isSlotStart hstart
        have hname : c :: cs.takeWhile isSlotPart ++ cs.dropWhile isSlotPart = c :: cs := by
          rw [List.cons_append, List.takeWhile_append_dropWhile]
        rw [if_pos hstart, closing_of_isSlotPart hpart]
        rw [first?_greedy fun d rest hd _ => ?_]
        · rw [first?_quote_blanks hclosing, take_before hname]
          simp [closingName, slotName, hstart, hpart, withName]
        · rw [first?_quote_blanks hclosing, closing_of_isSlotPart hd]
      · rw [if_neg hstart, closingName_of_not_isSlotStart hstart]
        rfl

theorem first?_quotedName (hclosing : WantsClosing goOn) :
    quotedNamePattern.first? goOn ⟨groups, cs⟩ = closingName goOn groups (skipQuote cs) := by
  rw [quotedNamePattern, first?_seq, first?_optional, first?_name hclosing]
  cases cs with
  | nil => rfl
  | cons c cs =>
      rw [first?_one, first?_name hclosing]
      by_cases hquote : isQuote c
      · rw [closingName_of_not_isSlotStart (not_isSlotStart_of_isQuote hquote), skipQuote,
          if_pos hquote, if_pos hquote]
        -- A quote that is left to the other side of a missing name changes nothing.
        by_cases hrest : Text.skipBlanks cs = [')']
        · rw [closingName_of_closing hrest]
          simp
        · have hnone : closing goOn groups cs = none := if_neg hrest
          rw [hnone]
          simp
      · rw [skipQuote, if_neg hquote, if_neg hquote]
        rfl

/-- The pattern of a slot matches what is read as one. -/
theorem first?_slotPattern (hclosing : WantsClosing goOn) :
    slotPattern.first? goOn ⟨groups, ',' :: cs⟩
      = (slot? cs).bind fun name => goOn ⟨withName name groups, [')']⟩ := by
  have hslot : (slot? cs).bind (fun name => goOn ⟨withName name groups, [')']⟩)
      = closingName goOn groups (skipQuote (Text.skipBlanks cs)) := by
    unfold slot? closingName closing
    dsimp only
    split <;> rfl
  rw [slotPattern, first?_seq, first?_exactly, if_pos rfl, first?_seq, hslot,
    ← first?_quotedName hclosing]
  refine first?_greedy fun d rest hblank hnone => ?_
  have hskip : skipQuote (d :: rest) = d :: rest := if_neg (not_isQuote_of_isBlank hblank)
  rw [first?_quotedName hclosing] at hnone ⊢
  rw [hskip, closingName_of_not_isSlotStart (not_isSlotStart_of_isBlank hblank), hskip]
  have hsame : closing goOn groups (d :: rest) = closing goOn groups rest := by
    rw [closing, closing, skipBlanks_of_isBlank hblank]
  rw [hsame]
  by_cases hrest : Text.skipBlanks rest = [')']
  · rwa [(nothing_before_closing hrest).2, closingName_of_closing hrest] at hnone
  · exact if_neg hrest

/-! ### The end -/

def finish (place : Place) : Option Directive :=
  if place.rest = [] then some (ofGroups place.groups) else none

def afterArgument (argument : Argument) (cs : List Char) : Option Directive :=
  match Text.skipBlanks cs with
  | [')'] => some (ofArgument argument)
  | ',' :: slot => (slot? slot).map (ofSlot argument)
  | _ => none

inductive Holds : List (Nat × List Char) → Argument → Prop
  | double (content : List Char) : Holds [(1, content)] (.quoted content)
  | single (content : List Char) : Holds [(2, content)] (.quoted content)
  | bare (content : List Char) : Holds [(3, content)] (.bare content)

theorem getD_prompt (content : List Char) :
    (((some content).filter (!·.isEmpty)).map String.ofList).getD defaultPrompt
      = orDefault content defaultPrompt := by
  cases content <;> rfl

theorem ofGroups_of_holds {argument : Argument} (h : Holds groups argument) :
    ofGroups groups = ofArgument argument := by
  cases h with
  | double content => exact congrArg₂ Directive.mk (getD_prompt content) rfl
  | single content => exact congrArg₂ Directive.mk (getD_prompt content) rfl
  | bare content =>
      by_cases hname : isPlainName content
      · simp [ofGroups, ofArgument, hname, List.lookup]
      · simp [ofGroups, ofArgument, hname, ← getD_prompt, List.lookup]

theorem ofGroups_of_slot {argument : Argument} (h : Holds groups argument) (slot name : List Char) :
    ofGroups ((4, slot) :: withName name groups) = ofSlot argument name := by
  cases h <;> cases name <;> exact congrArg₂ Directive.mk (getD_prompt _) rfl

theorem first?_close :
    (exactly ')').first? finish ⟨groups, cs⟩
      = if cs = [')'] then some (ofGroups groups) else none := by
  cases cs with
  | nil => rfl
  | cons c cs =>
      rw [first?_exactly, finish]
      by_cases hc : c = ')' <;> simp [hc]

section AfterArgument

variable {argument : Argument}

theorem first?_slot_close (h : Holds groups argument) (slot : List Char) :
    (seq (optional (group 4 slotPattern)) (exactly ')')).first? finish ⟨groups, ',' :: slot⟩
      = (slot? slot).map (ofSlot argument) := by
  rw [first?_seq, first?_optional, first?_group, first?_close, first?_slotPattern]
  · simp only [first?_close, if_true, ofGroups_of_slot h]
    cases slot? slot <;> rfl
  · intro place hplace
    dsimp only
    rw [first?_close, if_neg hplace]

theorem first?_close_alone (h : Holds groups argument) (hcomma : ',' ∉ cs.head?) :
    (seq (optional (group 4 slotPattern)) (exactly ')')).first? finish ⟨groups, cs⟩
      = if cs = [')'] then some (ofArgument argument) else none := by
  rw [first?_seq, first?_optional, first?_group, first?_close, slotPattern, first?_seq,
    ofGroups_of_holds h]
  cases cs with
  | nil => rfl
  | cons c cs =>
      have hc : c ≠ ',' := by
        rintro rfl
        exact hcomma rfl
      rw [first?_exactly, if_neg hc]
      rfl

/-- The pattern behind an argument matches what is read there. -/
theorem first?_endPattern (h : Holds groups argument) :
    endPattern.first? finish ⟨groups, cs⟩ = afterArgument argument cs := by
  have hgreedy : endPattern.first? finish ⟨groups, cs⟩
      = (seq (optional (group 4 slotPattern)) (exactly ')')).first? finish
          ⟨groups, Text.skipBlanks cs⟩ := by
    rw [endPattern, first?_seq]
    refine first?_greedy fun d rest hblank _ => ?_
    have hcomma : ',' ∉ (d :: rest).head? := by
      rintro ⟨⟩
      cases hblank
    rw [first?_close_alone h hcomma, if_neg]
    rintro ⟨⟩
    cases hblank
  rw [hgreedy, afterArgument]
  split
  · rename_i hrest
    rw [hrest, first?_close_alone h (by decide), if_pos rfl]
  · rename_i hrest
    rw [hrest, first?_slot_close h]
  · rename_i hclose hcomma
    rw [first?_close_alone h, if_neg hclose]
    intro hmem
    obtain ⟨slot, hslot⟩ := List.head?_eq_some_iff.mp hmem
    exact hcomma slot hslot

end AfterArgument

/-! ### The argument -/

theorem skipBlanksAtEnd_cons (c : Char) (cs : List Char) :
    Text.skipBlanksAtEnd (c :: cs)
      = if Text.skipBlanksAtEnd cs = [] ∧ Text.isBlank c then []
        else c :: Text.skipBlanksAtEnd cs := by
  unfold Text.skipBlanksAtEnd Text.skipBlanks
  rw [List.reverse_cons, List.dropWhile_append]
  by_cases hrest : cs.reverse.dropWhile Text.isBlank = []
  · by_cases hblank : Text.isBlank c <;> simp [hrest, hblank]
  · simp [hrest]

theorem skipBlanksAtEnd_eq_nil_iff : Text.skipBlanksAtEnd cs = [] ↔ ∀ c ∈ cs, Text.isBlank c := by
  simp [Text.skipBlanksAtEnd, Text.skipBlanks]

section AfterArgument

variable {argument other : Argument} {c : Char}

theorem afterArgument_of_isBlank (hblank : Text.isBlank c) :
    afterArgument argument (c :: cs) = afterArgument argument cs := by
  rw [afterArgument, afterArgument, skipBlanks_of_isBlank hblank]

theorem afterArgument_of_not_blank (hblank : ¬ Text.isBlank c) (hc : c ∉ [',', ')']) :
    afterArgument argument (c :: cs) = none := by
  rw [afterArgument, skipBlanks_of_not_isBlank hblank]
  split
  · rename_i heq
    cases heq
    exact absurd hc (by decide)
  · rename_i heq
    cases heq
    exact absurd hc (by decide)
  · rfl

theorem afterArgument_of_isQuote (hquote : isQuote c) :
    afterArgument argument (c :: cs) = none := by
  refine afterArgument_of_not_blank (fun hblank => not_isQuote_of_isBlank hblank hquote) ?_
  rw [isQuote_iff] at hquote
  fin_cases hquote <;> decide

/-- Whether a directive ends well after its argument does not depend on the argument. -/
theorem afterArgument_eq_none (h : afterArgument argument cs = none) :
    afterArgument other cs = none := by
  unfold afterArgument at *
  split at h
  · cases h
  · simpa using h
  · rfl

theorem afterArgument_of_blanks (h : ∀ c ∈ cs.takeWhile isBare, Text.isBlank c) :
    afterArgument argument cs = afterArgument argument (cs.dropWhile isBare) := by
  induction cs with
  | nil => rfl
  | cons c cs ih =>
      by_cases hbare : isBare c
      · rw [List.takeWhile_cons_of_pos hbare, List.forall_mem_cons] at h
        rw [afterArgument_of_isBlank h.1, ih h.2, List.dropWhile_cons_of_pos hbare]
      · rw [List.dropWhile_cons_of_neg hbare]

theorem afterArgument_of_content (h : ¬ ∀ c ∈ cs.takeWhile isBare, Text.isBlank c) :
    afterArgument argument cs = none := by
  induction cs with
  | nil => exact absurd (by simp) h
  | cons c cs ih =>
      by_cases hbare : isBare c
      · rw [List.takeWhile_cons_of_pos hbare, List.forall_mem_cons, not_and] at h
        by_cases hblank : Text.isBlank c
        · rw [afterArgument_of_isBlank hblank, ih (h hblank)]
        · refine afterArgument_of_not_blank hblank fun hmem => ?_
          rw [isBare_iff] at hbare
          exact hbare (by fin_cases hmem <;> decide)
      · rw [List.takeWhile_cons_of_neg hbare] at h
        exact absurd (by simp) h

end AfterArgument

/-- A bare argument takes as few characters as it can, and so no blank at its end. -/
theorem first?_lazy_bare (front cs : List Char) :
    (run isBare false).first? (fun after => endPattern.first? finish ⟨(3,
        (front ++ cs).take ((front ++ cs).length - after.rest.length)) :: after.groups, after.rest⟩)
        ⟨[], cs⟩
      = afterArgument (.bare (front ++ Text.skipBlanksAtEnd (cs.takeWhile isBare)))
          (cs.dropWhile isBare) := by
  induction cs generalizing front with
  | nil =>
      rw [first?_run_nil]
      dsimp only
      rw [take_before rfl, first?_endPattern (.bare front)]
      simp [Text.skipBlanksAtEnd, Text.skipBlanks]
  | cons c cs ih =>
      have hlater := ih (front ++ [c])
      rw [List.append_assoc, List.singleton_append] at hlater
      rw [first?_lazy_cons, take_before rfl, first?_endPattern (.bare front), hlater]
      by_cases hbare : isBare c
      · rw [if_pos hbare, List.append_assoc, List.singleton_append,
          ← List.dropWhile_cons_of_pos hbare]
        by_cases hblanks : ∀ d ∈ (c :: cs).takeWhile isBare, Text.isBlank d
        · have hnothing : Text.skipBlanksAtEnd ((c :: cs).takeWhile isBare) = [] :=
            skipBlanksAtEnd_eq_nil_iff.mpr hblanks
          rw [hnothing, List.append_nil, afterArgument_of_blanks hblanks]
          cases hfirst : afterArgument (.bare front) ((c :: cs).dropWhile isBare) with
          | some directive => rfl
          | none => rw [afterArgument_eq_none hfirst]; rfl
        · rw [afterArgument_of_content hblanks, List.takeWhile_cons_of_pos hbare,
            skipBlanksAtEnd_cons, if_neg]
          · rfl
          · rw [List.takeWhile_cons_of_pos hbare, List.forall_mem_cons] at hblanks
            rwa [skipBlanksAtEnd_eq_nil_iff, and_comm]
      · rw [if_neg hbare, List.takeWhile_cons_of_neg hbare, List.dropWhile_cons_of_neg hbare]
        simp [Text.skipBlanksAtEnd, Text.skipBlanks]

/-- A bare argument is matched as far as it is read, without the blanks at its end. -/
theorem first?_bare :
    (group 3 (run isBare false)).first? (endPattern.first? finish) ⟨[], cs⟩
      = afterArgument (.bare (Text.skipBlanksAtEnd (cs.takeWhile isBare)))
          (cs.dropWhile isBare) := by
  rw [first?_group]
  exact first?_lazy_bare [] cs

def afterQuoted (quote : Char) (cs : List Char) : Option Directive :=
  match cs.dropWhile (· != quote) with
  | [] => none
  | _ :: after => afterArgument (.quoted (cs.takeWhile (· != quote))) after

/-- A quoted argument is matched up to the first quote of its kind. -/
theorem first?_quoted {quote c : Char} {number : Nat}
    (h : ∀ content, Holds [(number, content)] (.quoted content)) :
    (quotedPattern quote number).first? (endPattern.first? finish) ⟨[], c :: cs⟩
      = if c = quote then afterQuoted quote cs else none := by
  rw [quotedPattern, first?_seq, first?_exactly, first?_seq, first?_group, first?_greedy]
  · dsimp only
    rw [take_before List.takeWhile_append_dropWhile, afterQuoted]
    cases hrest : cs.dropWhile (· != quote) with
    | nil => rfl
    | cons d after =>
        have hhead := List.head?_dropWhile_not (· != quote) cs
        have hd : d = quote := by simpa [hrest] using hhead
        rw [first?_exactly, if_pos hd, first?_endPattern (h _)]
  · intro d rest hd _
    have hne : d ≠ quote := by simpa using hd
    rw [first?_exactly, if_neg hne]

def fromArgument (cs : List Char) : Option Directive :=
  (argument? cs).bind fun found => afterArgument found.1 found.2

theorem fromArgument_of_isQuote {c : Char} (hquote : isQuote c) :
    fromArgument (c :: cs) = afterQuoted c cs := by
  rw [fromArgument, argument?, if_pos hquote, afterQuoted]
  cases cs.dropWhile (· != c) <;> rfl

theorem fromArgument_of_not_isQuote (hquote : ∀ c ∈ cs.head?, ¬ isQuote c) :
    fromArgument cs
      = afterArgument (.bare (Text.skipBlanksAtEnd (cs.takeWhile isBare)))
          (cs.dropWhile isBare) := by
  cases cs with
  | nil => rfl
  | cons c cs => rw [fromArgument, argument?, if_neg (hquote c rfl), Option.bind_some]

/-- The pattern of an argument matches what is read as one, with what follows. -/
theorem first?_argumentPattern :
    argumentPattern.first? (endPattern.first? finish) ⟨[], cs⟩ = fromArgument cs := by
  rw [argumentPattern, first?_either, first?_either, first?_bare]
  cases cs with
  | nil => rfl
  | cons c cs =>
      rw [first?_quoted .double, first?_quoted .single]
      by_cases hquote : isQuote c
      · rw [List.dropWhile_cons_of_neg (not_isBare_of_isQuote hquote),
          afterArgument_of_isQuote hquote, fromArgument_of_isQuote hquote]
        rw [isQuote_iff] at hquote
        fin_cases hquote <;> simp
      · rw [fromArgument_of_not_isQuote (by simpa using hquote)]
        rw [isQuote_iff, List.mem_pair, not_or] at hquote
        rw [if_neg hquote.1, if_neg hquote.2]
        rfl

/-- Blanks before an argument are not left to it, since it would be read no better with them. -/
theorem first?_blanks_argument :
    blanks.first? (argumentPattern.first? (endPattern.first? finish)) ⟨[], cs⟩
      = fromArgument (Text.skipBlanks cs) := by
  rw [← first?_argumentPattern]
  refine first?_greedy fun d rest hblank hnone => ?_
  rw [first?_argumentPattern] at hnone ⊢
  have hdrop : (d :: rest).dropWhile isBare = rest.dropWhile isBare :=
    List.dropWhile_cons_of_pos (isBare_of_isBlank hblank)
  rw [fromArgument_of_not_isQuote (by simpa using not_isQuote_of_isBlank hblank), hdrop]
  by_cases hquote : ∀ c ∈ rest.head?, ¬ isQuote c
  · rw [fromArgument_of_not_isQuote hquote] at hnone
    exact afterArgument_eq_none hnone
  · obtain ⟨c, hhead, hc⟩ : ∃ c ∈ rest.head?, isQuote c := by simpa using hquote
    obtain ⟨rest, rfl⟩ := List.head?_eq_some_iff.mp hhead
    rw [List.dropWhile_cons_of_neg (not_isBare_of_isQuote hc), afterArgument_of_isQuote hc]

/-! ### The whole directive -/

theorem afterWord?_cons (w c : Char) (ws cs : List Char) :
    afterWord? (w :: ws) (c :: cs) = if c.toLower = w then afterWord? ws cs else none := by
  by_cases hc : c.toLower = w <;> simp [afterWord?, hc]

theorem first?_word (lower cs : List Char) :
    (word lower).first? goOn ⟨groups, cs⟩
      = (afterWord? lower cs).bind fun after => goOn ⟨groups, after⟩ := by
  induction lower generalizing cs with
  | nil => simp [word, first?, ends, afterWord?]
  | cons w ws ih =>
      have hword : word (w :: ws) = seq (one (·.toLower == w)) (word ws) := rfl
      rw [hword, first?_seq]
      cases cs with
      | nil => simp [first?_one_nil, afterWord?]
      | cons c cs =>
          rw [first?_one, afterWord?_cons, ih]
          by_cases hc : c.toLower = w <;> simp [hc]

/-- The two words start with letters that differ, and so no text starts with both. -/
theorem afterWord?_input_or_read (cs : List Char) :
    afterWord? ['i', 'n', 'p', 'u', 't'] cs = none ∨ afterWord? ['r', 'e', 'a', 'd'] cs = none := by
  cases cs with
  | nil => exact .inl rfl
  | cons c cs =>
      rw [afterWord?_cons, afterWord?_cons]
      by_cases hc : c.toLower = 'i'
      · exact .inr (by rw [hc]; rfl)
      · exact .inl (if_neg hc)

/-- The pattern of the word matches either word, in any case. -/
theorem first?_keyword :
    (either (word ['i', 'n', 'p', 'u', 't']) (word ['r', 'e', 'a', 'd'])).first? goOn ⟨groups, cs⟩
      = (afterKeyword? cs).bind fun after => goOn ⟨groups, after⟩ := by
  rw [first?_either, first?_word, first?_word, afterKeyword?]
  rcases afterWord?_input_or_read cs with hnone | hnone <;> simp [hnone]

def fromOpening (cs : List Char) : Option Directive :=
  match cs with
  | '(' :: inner => fromArgument (Text.skipBlanks inner)
  | _ => none

theorem fromOpening_of_ne {c : Char} (hc : c ≠ '(') : fromOpening (c :: cs) = none := by
  unfold fromOpening
  split
  · rename_i heq
    exact absurd (List.cons.inj heq).1 hc
  · rfl

theorem first?_parenthesis :
    (seq (exactly '(') (seq blanks (seq argumentPattern endPattern))).first? finish ⟨[], cs⟩
      = fromOpening cs := by
  rw [first?_seq, first?_seq, first?_seq]
  cases cs with
  | nil => rfl
  | cons c cs =>
      rw [first?_exactly, first?_blanks_argument]
      by_cases hc : c = '('
      · rw [if_pos hc, hc, fromOpening]
      · rw [if_neg hc, fromOpening_of_ne hc]

theorem first?_blanks_parenthesis :
    (seq blanks (seq (exactly '(') (seq blanks (seq argumentPattern endPattern)))).first? finish
        ⟨[], cs⟩
      = fromOpening (Text.skipBlanks cs) := by
  rw [first?_seq, ← first?_parenthesis]
  refine first?_greedy fun d rest hblank _ => ?_
  rw [first?_parenthesis, fromOpening_of_ne]
  rintro rfl
  cases hblank

/-- Reading a directive is reading its word, and then from its parenthesis on. -/
theorem read?_eq_fromOpening (body : String) :
    read? body = (afterKeyword? (Text.trimChars body.toList)).bind fun after =>
      fromOpening (Text.skipBlanks after) :=
  rfl

/-- **The pattern of a directive.** The reader finds what the groups hold in the first match of the
pattern, and nothing where the pattern does not match. -/
theorem read?_eq_match? (body : String) :
    read? body = (pattern.match? (Text.trimChars body.toList)).map ofGroups := by
  rw [match?_map, pattern, first?_seq, read?_eq_fromOpening]
  change _ = Pattern.first? _ (Pattern.first? _ finish) _
  rw [first?_keyword]
  simp only [first?_blanks_parenthesis]

end Directive

end Flowchart
