import Flowchart.Proofs.Relocation

/-!
# Bodies in a row

Two bodies with a semicolon between them are executed one after the other. The semicolon ends the
last statement of the first body where the end of that body would have ended it, and the second body
is read as it would be alone, but for the offsets in complaints.
-/

namespace Flowchart

/-- A semicolon cuts as an end mark in its place does. -/
theorem Statement.splitFrom_semicolon (begun front rest : List Token) (position : Nat) :
    splitFrom begun (front ++ ⟨.mark .semicolon, position⟩ :: rest)
      = splitFrom begun (front ++ [⟨.finish, position⟩]) ++ splitFrom [] rest := by
  induction front generalizing begun with
  | nil =>
      simp only [List.nil_append, splitFrom]
      by_cases hempty : begun.isEmpty
      · rw [if_pos hempty, if_pos hempty]
        rfl
      · rw [if_neg hempty, if_neg hempty]
        rfl
  | cons token front ih =>
      simp only [List.cons_append, splitFrom, ih]
      by_cases hends : token.kind.endsStatement
      · rw [if_pos hends, if_pos hends]
        by_cases hempty : begun.isEmpty
        · rw [if_pos hempty, if_pos hempty]
        · rw [if_neg hempty, if_neg hempty, List.cons_append]
      · rw [if_neg hends, if_neg hends]

section Joined

variable {first second : String} {tokens later : List Token}

/-- Joined sources have the tokens of the first, a semicolon in the place of its end mark, and the
tokens of the second. -/
theorem Token.scan_joined (hfirst : scan first = .ok tokens) (hsecond : scan second = .ok later) :
    ∃ front, tokens = front ++ [⟨.finish, first.utf8ByteSize⟩]
      ∧ scan (first ++ ";" ++ second) = .ok (front ++ ⟨.mark .semicolon, first.utf8ByteSize⟩
        :: later.map (Token.shift (first.utf8ByteSize + 1))) := by
  obtain ⟨front, hfront, hscans⟩ := (scans_of_scanFrom hfirst).before_semicolon
  have hlater := (scans_of_scanFrom hsecond).shift (first.utf8ByteSize + 1)
  have hbody : (first ++ ";" ++ second).toList = first.toList ++ ';' :: second.toList := by simp
  rw [width_toList, Nat.zero_add] at hfront hscans
  rw [Nat.zero_add] at hlater
  refine ⟨front, hfront, ?_⟩
  rw [scan, hbody]
  exact (hscans hlater).scanFrom_eq_ok

/-- Joined sources have the chunks of both. -/
theorem Statement.split_joined {chunks laterChunks : List (List Token)}
    (hfirst : split first = .ok chunks) (hsecond : split second = .ok laterChunks) :
    split (first ++ ";" ++ second)
      = .ok (chunks ++ laterChunks.map (List.map (Token.shift (first.utf8ByteSize + 1)))) := by
  obtain ⟨tokens, htokens, rfl⟩ := map_eq_ok_iff.mp hfirst
  obtain ⟨later, hlater, rfl⟩ := map_eq_ok_iff.mp hsecond
  obtain ⟨front, rfl, hscan⟩ := Token.scan_joined htokens hlater
  have hshift := splitFrom_shift (first.utf8ByteSize + 1) [] later
  rw [List.map_nil] at hshift
  rw [split, hscan, Except.map, splitFrom_semicolon, hshift]

/-- The chunks of the second body are executed where those of the first have left off. -/
theorem Body.exec_of_joined {chunks laterChunks : List (List Token)}
    (hfirst : Statement.split first = .ok chunks)
    (hsecond : Statement.split second = .ok laterChunks) (environment : Environment) :
    exec environment (first ++ ";" ++ second) =
      (exec environment first).andThen fun left count =>
        ((exec left second).map (count + ·)).shift (first.utf8ByteSize + 1) := by
  have hne : ∀ chunk ∈ laterChunks, chunk ≠ [] := by
    obtain ⟨later, -, rfl⟩ := map_eq_ok_iff.mp hsecond
    exact fun chunk hmem => Statement.ne_nil_of_mem_splitFrom hmem
  rw [exec_of_split (Statement.split_joined hfirst hsecond), exec_of_split hfirst,
    execChunks_append, Execution.map_andThen, Execution.andThen_map]
  simp only [execChunks_shift hne, exec_of_split hsecond, Execution.shift_map, List.length_append,
    List.length_map, Execution.map_map]

/-- **Bodies compose.** Of two bodies that have tokens, the tokens of the first without its end mark,
a semicolon and the tokens of the second further on are the tokens of both with a semicolon between
them; each semicolon of the whole is one of those tokens or stands in a text. So the statements are
those of the first and then those of the second, and executing the whole is executing the first and,
unless that has a fault, the second where the first has left off; the counts add up, and a complaint
about the second stands further on. -/
theorem exec_joined (hfirst : Token.scan first = .ok tokens)
    (hsecond : Token.scan second = .ok later) (environment : Environment) :
    let body := first ++ ";" ++ second
    let offset := first.utf8ByteSize + 1
    (∃ front, tokens = front ++ [⟨.finish, first.utf8ByteSize⟩]
      ∧ let whole :=
          front ++ ⟨.mark .semicolon, first.utf8ByteSize⟩ :: later.map (Token.shift offset)
        Token.scan body = .ok whole
          ∧ body.toList.count ';' = (whole.map (·.kind.semicolons)).sum)
    ∧ (∃ chunks others, Statement.split first = .ok chunks ∧ Statement.split second = .ok others
      ∧ Statement.split body = .ok (chunks ++ others.map (List.map (Token.shift offset))))
    ∧ Body.exec environment body = (Body.exec environment first).andThen fun left count =>
        ((Body.exec left second).map (count + ·)).shift offset := by
  intro body offset
  have hchunks : Statement.split first = .ok (Statement.splitFrom [] tokens) :=
    map_eq_ok_iff.mpr ⟨tokens, hfirst, rfl⟩
  have hothers : Statement.split second = .ok (Statement.splitFrom [] later) :=
    map_eq_ok_iff.mpr ⟨later, hsecond, rfl⟩
  obtain ⟨front, hfront, hscan⟩ := Token.scan_joined hfirst hsecond
  refine ⟨⟨front, hfront, hscan, (Token.scans_of_scanFrom hscan).count_semicolon⟩, ?_, ?_⟩
  · exact ⟨_, _, hchunks, hothers, Statement.split_joined hchunks hothers⟩
  · exact Body.exec_of_joined hchunks hothers environment

instance decidableEqExcept {ε α : Type} [DecidableEq ε] [DecidableEq α] :
    DecidableEq (Except ε α)
  | .error e, .error other => decidable_of_iff (e = other) ⟨congrArg _, Except.error.inj⟩
  | .ok a, .ok other => decidable_of_iff (a = other) ⟨congrArg _, Except.ok.inj⟩
  | .error _, .ok _ => isFalse nofun
  | .ok _, .error _ => isFalse nofun

/-- A text with a semicolon before a body that breaks off: the complaint about that body stands
eleven bytes further on, and what came before it is done. -/
theorem exec_joined_text_with_semicolon :
    let first := "é = 'p;q'"
    let second := "y = é; z ="
    let body := first ++ ";" ++ second
    let run := Body.exec .empty body
    let alone := Body.exec (Environment.empty.set "é" (.text "p;q")) second
    run = (Body.exec .empty first).andThen (fun left count =>
        ((Body.exec left second).map (count + ·)).shift 11)
      ∧ run.environment.get? "y" = some (.text "p;q")
      ∧ alone.result = .error (.unreadable ⟨11, .expected .expression .finish⟩)
      ∧ run.result = .error (.unreadable ⟨22, .expected .expression .finish⟩) := by
  intro first second body run alone
  have hfirst : Token.scan first = .ok [⟨.name "é", 0⟩, ⟨.mark .assign, 3⟩, ⟨.text "p;q", 5⟩,
      ⟨.finish, 10⟩] := by decide +kernel
  have hsecond : Token.scan second = .ok [⟨.name "y", 0⟩, ⟨.mark .assign, 2⟩, ⟨.name "é", 4⟩,
      ⟨.mark .semicolon, 6⟩, ⟨.name "z", 8⟩, ⟨.mark .assign, 10⟩, ⟨.finish, 11⟩] := by
    decide +kernel
  exact ⟨(exec_joined hfirst hsecond .empty).2.2, by decide +kernel, by decide +kernel,
    by decide +kernel⟩

end Joined

end Flowchart
