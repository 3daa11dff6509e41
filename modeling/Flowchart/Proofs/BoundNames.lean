import Mathlib
import Flowchart.Proofs.DirectiveLanguage
import Flowchart.Proofs.Lexemes
import Flowchart.Proofs.Relexing

/-!
# Names of answers and names of the language

A directive binds its answer to a name of basic letters, digits and low lines, among which it counts
the two characters that differ from a basic letter by their case alone. But for the truth values all
of these are names of the language. The language has names of other letters as well, and to those no
answer can be bound.
-/

namespace Flowchart

open Directive (IsSlotName isSlotStart isSlotPart)

/-! ### Names of slots are names of the language -/

theorem Text.isNameStart_of_isSlotStart {c : Char} (h : isSlotStart c) : isNameStart c := by
  simp only [isSlotStart, Bool.or_eq_true, decide_eq_true_eq] at h
  rcases h with ((halpha | rfl) | rfl) | rfl
  · simp [isNameStart, isLetter, halpha]
  · rfl
  · decide
  · decide +kernel

theorem Text.isNamePart_of_isSlotPart {c : Char} (h : isSlotPart c) : isNamePart c := by
  rw [isSlotPart, Bool.or_eq_true] at h
  rcases h with hstart | hdigit
  · have hname := isNameStart_of_isSlotStart hstart
    simp only [isNameStart, Bool.or_eq_true] at hname
    rcases hname with hletter | hline <;> simp [isNamePart, *]
  · simp [isNamePart, isNumeral, hdigit]

/-- What may stand in a slot is a word of the language, if it is anything. -/
theorem isWord_of_isSlotName {v : String} (hname : IsSlotName v.toList) (hne : v ≠ "") :
    Token.IsWord v := by
  rcases hname with hnil | ⟨c, rest, hv, hstart, hparts⟩
  · exact absurd (String.toList_eq_nil_iff.mp hnil) hne
  · have hblank : ¬ Text.isBlank c := fun hblank =>
      Directive.not_isSlotStart_of_isBlank hblank hstart
    refine ⟨c, rest, hv, Bool.not_eq_true _ ▸ hblank, Text.isNameStart_of_isSlotStart hstart, ?_⟩
    exact List.all_eq_true.mpr fun d hmem => Text.isNamePart_of_isSlotPart (hparts d hmem)

namespace Token

/-- A word that is no truth value is the only token of itself. -/
theorem scan_of_isWord {v : String} (hword : IsWord v) (hbool : ∀ b, v ≠ (Value.bool b).display) :
    scan v = .ok [⟨.name v, 0⟩, ⟨.finish, v.utf8ByteSize⟩] := by
  rw [scan, ← List.append_nil v.toList, scanFrom_word hword (by simp), Nat.zero_add, width_toList,
    ofWord_of_ne hbool, scanFrom_eq]
  rfl

/-- A name starts with a character, and not with a digit. -/
theorem exists_start_of_scan {v : String} {last : Token}
    (hscan : scan v = .ok [⟨.name v, 0⟩, last]) :
    ∃ c rest, v.toList = c :: rest ∧ ¬ c.isDigit := by
  rw [scan] at hscan
  cases hv : v.toList with
  | nil =>
      rw [hv, scanFrom_eq] at hscan
      cases hscan
  | cons c rest =>
      refine ⟨c, rest, rfl, fun hdigit => ?_⟩
      have hlexeme : lexeme 0 c rest = .ok (numeral (c :: rest)) :=
        lexeme_of_number (by rw [hdigit, Bool.true_or]) 0
      rw [hv, scanFrom_lexeme (isBlank_eq_false_of_isDigit hdigit) hlexeme] at hscan
      obtain ⟨later, -, hlater⟩ := map_eq_ok_iff.mp hscan
      obtain ⟨hfirst, -⟩ := List.cons.inj hlater
      have hkind : (numeral (c :: rest)).kind = .name v := (Token.mk.inj hfirst).1
      unfold numeral at hkind
      dsimp only at hkind
      split at hkind
      · split at hkind <;> cases hkind
      · cases hkind

end Token

/-! ### Names of answers -/

namespace Directive

theorem Writes.isSlotName {argument : Argument} {slot : Option (List Char)} {cs : List Char}
    (h : Writes argument slot cs) : ∀ name ∈ slot, IsSlotName name := by
  intro name hmem
  obtain ⟨-, -, -, -, -, hslot⟩ := h
  cases hslot with
  | missing => cases hmem
  | named _ _ hname =>
      cases hmem
      exact hname

/-- Every name that a directive writes may stand in a slot. -/
theorem isSlotName_written (argument : Argument) {slot : Option (List Char)}
    (hslot : ∀ name ∈ slot, IsSlotName name) : IsSlotName (written argument slot).2 := by
  have hslot : IsSlotName (slot.getD []) := by
    cases slot with
    | none => exact .inl rfl
    | some name => exact hslot name rfl
  cases argument with
  | quoted content => exact hslot
  | bare content =>
      cases slot with
      | some name => exact hslot
      | none =>
          by_cases hname : isPlainName content
          · rw [written, if_pos hname]
            exact isSlotName_of_isPlainName hname
          · rw [written, if_neg hname]
            exact .inl rfl

/-- An answer is bound to a name that could be written in a slot, if only to the default one. -/
theorem isSlotName_variableName {body : String} {directive : Directive}
    (h : read? body = some directive) :
    IsSlotName directive.variableName.toList ∧ directive.variableName ≠ "" := by
  obtain ⟨argument, slot, hwrites, rfl⟩ := exists_writes h
  have hname := isSlotName_written argument hwrites.isSlotName
  unfold said
  generalize (written argument slot).2 = name at hname
  cases name with
  | nil => exact ⟨.inr ⟨'x', [], by simp [orDefault], by decide, by simp⟩, by simp [orDefault]⟩
  | cons c cs => simpa [orDefault] using hname

end Directive

/-- **Names of answers.** An answer is bound to a name of the language, if not to the word of a
truth value. A name can be written in the slot of a directive exactly if it is a name of the
language in which no letter stands but basic ones and those that differ from one by case alone. -/
theorem answers_are_bound_to_names :
    (∀ body directive, Directive.read? body = some directive →
      (∀ b, directive.variableName ≠ (Value.bool b).display) →
      Token.scan directive.variableName = .ok [⟨.name directive.variableName, 0⟩,
        ⟨.finish, directive.variableName.utf8ByteSize⟩])
    ∧ ∀ prompt name : String, '"' ∉ prompt.toList → (∀ b, name ≠ (Value.bool b).display) →
      ((∃ directive,
          Directive.read? ("input(\"" ++ prompt ++ "\", " ++ name ++ ")") = some directive
          ∧ directive.variableName = name)
        ↔ Token.scan name = .ok [⟨.name name, 0⟩, ⟨.finish, name.utf8ByteSize⟩]
          ∧ ∀ c ∈ name.toList, isSlotPart c) := by
  have hbound : ∀ body directive, Directive.read? body = some directive →
      (∀ b, directive.variableName ≠ (Value.bool b).display) →
      Token.scan directive.variableName = .ok [⟨.name directive.variableName, 0⟩,
        ⟨.finish, directive.variableName.utf8ByteSize⟩] := by
    intro body directive hread hbool
    obtain ⟨hname, hne⟩ := Directive.isSlotName_variableName hread
    exact Token.scan_of_isWord (isWord_of_isSlotName hname hne) hbool
  refine ⟨hbound, fun prompt name hprompt hbool => ⟨?_, ?_⟩⟩
  · rintro ⟨directive, hread, rfl⟩
    refine ⟨hbound _ directive hread hbool, ?_⟩
    obtain ⟨hnil | ⟨c, rest, hname, hstart, hparts⟩, -⟩ := Directive.isSlotName_variableName hread
    · simp [hnil]
    · rw [hname, List.forall_mem_cons]
      exact ⟨Directive.isSlotPart_of_isSlotStart hstart, hparts⟩
  · rintro ⟨hscan, hparts⟩
    obtain ⟨c, rest, hlist, hdigit⟩ := Token.exists_start_of_scan hscan
    have hname : IsSlotName name.toList := by
      rw [hlist, List.forall_mem_cons] at hparts
      have hstart : isSlotStart c := by simpa [isSlotPart, hdigit] using hparts.1
      exact .inr ⟨c, rest, hlist, hstart, hparts.2⟩
    have hne : name ≠ "" := by
      rintro rfl
      cases hlist
    exact ⟨_, Directive.read?_input hprompt hname,
      (Directive.orDefault_toList name "x").trans (if_neg hne)⟩

/-- A name that can be asked for is a name of the language. -/
theorem answer_is_bound_to_plain_name :
    Token.scan "n_1" = .ok [⟨.name "n_1", 0⟩, ⟨.finish, 3⟩] :=
  ((answers_are_bound_to_names.2 "How many?" "n_1" (by decide) (by decide)).mp
    ⟨⟨"How many?", "n_1"⟩, rfl, rfl⟩).1

/-- A letter that is not basic makes a name of the language, and no answer can be bound to it. -/
theorem accented_name_is_not_bound :
    Token.scan "é" = .ok [⟨.name "é", 0⟩, ⟨.finish, 2⟩]
      ∧ Directive.read? "input(\"p\", é)" = none := by
  have hword : Token.IsWord "é" := ⟨'é', [], by decide⟩
  have hbool : ∀ b, "é" ≠ (Value.bool b).display := by decide
  exact ⟨Token.scan_of_isWord hword hbool, by decide⟩

end Flowchart
