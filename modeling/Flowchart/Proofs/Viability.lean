import Flowchart.Proofs.Acceptance
import Flowchart.Proofs.Descent
import Flowchart.Proofs.Scanning

/-!
# The first hopeless token

Where the parser finds a token that it does not want, the tokens before it go on to something that
the grammar has, if its limits are left aside, and with that token they go on to nothing. For the
first half, what the machine holds on its stack is read as the beginning of a derivation. For the
second, the machine has looked at no token after that one, so that it would complain of the same
token whatever followed; but what the grammar has is refused for its limits alone.
-/

namespace Flowchart

open Token (Kind)
open Grammar

namespace Grammar

def Derivable (level : Nat) (kinds : List Kind) : Prop :=
  ∃ expr nesting, Derives level kinds expr nesting

/-- The tokens of an expression with their end mark, the limits left aside. -/
def IsExpression (kinds : List Kind) : Prop :=
  ∃ body, kinds = body ++ [.finish] ∧ Derivable 1 body

def IsStatement (kinds : List Kind) : Prop :=
  IsExpression kinds
    ∨ ∃ target value, kinds = .name target :: .mark .assign :: value ∧ IsExpression value

theorem Derivable.looser {level loose : Nat} {kinds : List Kind} (h : Derivable level kinds)
    (hle : loose ≤ level) : Derivable loose kinds := by
  induction hle with
  | refl => exact h
  | step _ ih =>
      obtain ⟨expr, nesting, hderives⟩ := h
      exact ih ⟨expr, nesting, .tighter hderives⟩

theorem derivable_bool {level : Nat} (h : level ≤ 8) : Derivable level [.bool true] :=
  Derivable.looser ⟨_, _, .bool true⟩ h

theorem Derivable.join {level : Nat} {mark : Mark} {op : BinaryOp} {left right : List Kind}
    (hop : (mark, op) ∈ operators level) (hleft : Derivable level left)
    (hright : Derivable (level + 1) right) : Derivable level (left ++ .mark mark :: right) := by
  obtain ⟨leftExpr, leftNesting, hleft⟩ := hleft
  obtain ⟨rightExpr, rightNesting, hright⟩ := hright
  exact ⟨_, _, .join hop hleft hright⟩

theorem Derivable.sign {mark : Mark} {op : UnaryOp} {kinds : List Kind} (hop : (mark, op) ∈ signs)
    (h : Derivable 7 kinds) : Derivable 7 (.mark mark :: kinds) := by
  obtain ⟨expr, nesting, hderives⟩ := h
  exact ⟨_, _, .sign hop hderives⟩

theorem Derivable.group {kinds : List Kind} (h : Derivable 1 kinds) :
    Derivable 8 (.mark .leftParen :: (kinds ++ [.mark .rightParen])) := by
  obtain ⟨expr, nesting, hderives⟩ := h
  exact ⟨_, _, .group hderives⟩

theorem Derivable.call {parts : List (List Kind)} (h : ∀ part ∈ parts, Derivable 1 part)
    (function : Builtin) :
    Derivable 8 (.name function.name :: .mark .leftParen ::
      ([Kind.mark .comma].intercalate parts ++ [.mark .rightParen])) := by
  have hphrases : ∃ phrases : List Phrase, phrases.map Phrase.kinds = parts
      ∧ ∀ phrase ∈ phrases, Derives 1 phrase.kinds phrase.expr phrase.nesting := by
    induction parts with
    | nil => exact ⟨[], rfl, by simp⟩
    | cons part parts ih =>
        obtain ⟨⟨expr, nesting, hpart⟩, hparts⟩ := List.forall_mem_cons.mp h
        obtain ⟨phrases, rfl, hphrases⟩ := ih hparts
        exact ⟨⟨part, expr, nesting⟩ :: phrases, rfl, List.forall_mem_cons.mpr ⟨hpart, hphrases⟩⟩
  obtain ⟨phrases, rfl, hphrases⟩ := hphrases
  exact ⟨_, _, .call function phrases hphrases⟩

theorem intercalate_concat (parts : List (List Kind)) (last : List Kind) :
    [Kind.mark .comma].intercalate (parts ++ [last])
      = parts.flatMap (· ++ [.mark .comma]) ++ last := by
  induction parts with
  | nil => simp
  | cons part parts ih =>
      have hne : parts ++ [last] ≠ [] := by simp
      obtain ⟨next, rest, hnext⟩ := List.exists_cons_of_ne_nil hne
      rw [List.cons_append, hnext, List.intercalate_cons_cons, ← hnext, ih]
      simp

def openCall (function : Builtin) (parts : List (List Kind)) : List Kind :=
  .name function.name :: .mark .leftParen :: parts.flatMap (· ++ [.mark .comma])

theorem openCall_concat (function : Builtin) (parts : List (List Kind)) (last : List Kind) :
    openCall function (parts ++ [last]) = openCall function parts ++ (last ++ [.mark .comma]) := by
  simp [openCall]

theorem derivable_openCall_nil (function : Builtin) :
    Derivable 8 (openCall function [] ++ [.mark .rightParen]) :=
  @Derivable.call [] (by simp) function

/-- A call whose last argument is still to come can be completed. -/
theorem derivable_openCall {parts : List (List Kind)} {last : List Kind}
    (hparts : ∀ part ∈ parts, Derivable 1 part) (hlast : Derivable 1 last) (function : Builtin) :
    Derivable 8 (openCall function parts ++ (last ++ [.mark .rightParen])) := by
  have hall : ∀ part ∈ parts ++ [last], Derivable 1 part := by
    simpa [or_imp, forall_and] using ⟨hparts, hlast⟩
  have hcall := Derivable.call hall function
  rw [intercalate_concat] at hcall
  simpa [openCall] using hcall

end Grammar

namespace Descent

/-! ### The stack as the beginning of a derivation -/

/-- After tokens of these kinds, an expression of a level is awaited by what is on the stack. What
is read altogether begins with `base`. -/
inductive Awaits (base : List Kind) : List Frame → Nat → List Kind → Prop
  | outermost : Awaits base [] 1 base
  | chain {frames loose level front} (hle : loose ≤ level) (h : Awaits base frames loose front) :
      Awaits base (.chain level :: frames) level front
  | join {frames loose level front mark op left parsed} (hle : loose ≤ level)
      (hop : (mark, op) ∈ operators level) (hleft : Derivable level left)
      (h : Awaits base frames loose front) :
      Awaits base (.join level op parsed :: frames) (level + 1) (front ++ (left ++ [.mark mark]))
  | sign {frames loose front mark op position} (hle : loose ≤ 7) (hop : (mark, op) ∈ signs)
      (h : Awaits base frames loose front) :
      Awaits base (.sign op position :: frames) 7 (front ++ [.mark mark])
  | group {frames loose front} (hle : loose ≤ 8) (h : Awaits base frames loose front) :
      Awaits base (.group :: frames) 1 (front ++ [.mark .leftParen])
  | argument {frames loose front function position arguments parts} (hle : loose ≤ 8)
      (hparts : ∀ part ∈ parts, Derivable 1 part) (h : Awaits base frames loose front) :
      Awaits base (.argument function position arguments :: frames) 1
        (front ++ openCall function parts)

def Extends (base front : List Kind) : Prop :=
  ∃ more body, front ++ more = base ++ body ∧ Derivable 1 body

theorem Extends.of_append {base front more : List Kind} (h : Extends base (front ++ more)) :
    Extends base front := by
  obtain ⟨rest, body, hbody, hderivable⟩ := h
  exact ⟨more ++ rest, body, by rw [← hbody, List.append_assoc], hderivable⟩

/-- What is awaited can be given, and completes what was begun. -/
theorem Awaits.extends {base front kinds : List Kind} {frames : List Frame} {level : Nat}
    (h : Awaits base frames level front) (hkinds : Derivable level kinds) :
    Extends base (front ++ kinds) := by
  -- Each frame makes what it awaits into what the frame below it awaits, once closed.
  induction h generalizing kinds with
  | outermost => exact ⟨[], kinds, List.append_nil _, hkinds⟩
  | chain hle _ ih => exact ih (hkinds.looser hle)
  | join hle hop hleft _ ih =>
      have hjoined := ih ((hleft.join hop hkinds).looser hle)
      simpa using hjoined
  | sign hle hop _ ih =>
      have hsigned := ih ((hkinds.sign hop).looser hle)
      simpa using hsigned
  | @group _ _ front hle _ ih =>
      have hgrouped := ih (hkinds.group.looser hle)
      refine @Extends.of_append base _ [.mark .rightParen] ?_
      simpa using hgrouped
  | @argument _ _ front function _ _ parts hle hparts _ ih =>
      have hcalled := ih ((derivable_openCall hparts hkinds function).looser hle)
      refine @Extends.of_append base _ [.mark .rightParen] ?_
      simpa using hcalled

theorem Awaits.extends_bare {base front : List Kind} {frames : List Frame} {level : Nat}
    (h : Awaits base frames level front) (hle : level ≤ 8) : Extends base front :=
  Extends.of_append (h.extends (derivable_bool hle))

/-- What was read goes on from where the reading began. -/
theorem Awaits.base_prefix {base front : List Kind} {frames : List Frame} {level : Nat}
    (h : Awaits base frames level front) : base <+: front := by
  induction h with
  | outermost => exact List.prefix_rfl
  | chain _ _ ih => exact ih
  | join _ _ _ _ ih | sign _ _ _ ih | group _ _ ih | argument _ _ _ ih =>
      exact ih.trans (List.prefix_append _ _)

theorem Awaits.ne_base {base front kinds : List Kind} {frames : List Frame} {level : Nat}
    (h : Awaits base frames level front) (hkinds : kinds ≠ []) : front ++ kinds ≠ base := by
  obtain ⟨more, rfl⟩ := h.base_prefix
  simp [hkinds]

/-! ### What a run has read -/

/-- What has been read is the beginning of something that the grammar has, and the stack and the
focus say how it begins. -/
inductive OnTrack (base : List Kind) (origin : Cursor) : State → Prop
  | start {target frames cursor front} (hreads : origin.Reads cursor front)
      (h : Awaits base frames 1 front) : OnTrack base origin ⟨target, frames, .start, cursor⟩
  | seek {target frames cursor level loose front} (hlevel : level ≤ 7) (hle : loose ≤ level)
      (hreads : origin.Reads cursor front) (h : Awaits base frames loose front) :
      OnTrack base origin ⟨target, frames, .seek level, cursor⟩
  | word {target frames cursor name position loose front} (hle : loose ≤ 8)
      (hreads : origin.Reads cursor (front ++ [.name name])) (h : Awaits base frames loose front) :
      OnTrack base origin ⟨target, frames, .word name position, cursor⟩
  | first {target frames cursor function position loose front} (hle : loose ≤ 8)
      (hreads : origin.Reads cursor (front ++ openCall function []))
      (h : Awaits base frames loose front) :
      OnTrack base origin ⟨target, frames, .first function position, cursor⟩
  | between {target frames cursor function position arguments loose front parts last}
      (hle : loose ≤ 8) (hparts : ∀ part ∈ parts, Derivable 1 part) (hlast : Derivable 1 last)
      (hreads : origin.Reads cursor (front ++ (openCall function parts ++ last)))
      (h : Awaits base frames loose front) :
      OnTrack base origin ⟨target, frames, .between function position arguments, cursor⟩
  | hold {target frames cursor parsed loose front kinds} (hkinds : Derivable loose kinds)
      (hreads : origin.Reads cursor (front ++ kinds)) (h : Awaits base frames loose front) :
      OnTrack base origin ⟨target, frames, .hold parsed, cursor⟩
  | ok {target frames cursor statement} :
      OnTrack base origin ⟨target, frames, .done (.ok statement), cursor⟩
  | unexpected {target frames cursor wanted front} (hreads : origin.Reads cursor front)
      (hextends : Extends base front) (hopens : front = base → ¬ Opens cursor.current.kind) :
      OnTrack base origin ⟨target, frames, .done (.error (cursor.unexpected wanted)), cursor⟩
  | unknownFunction {target frames cursor position name} :
      OnTrack base origin ⟨target, frames, .done (.error ⟨position, .unknownFunction name⟩), cursor⟩
  | tooDeep {target frames cursor position} :
      OnTrack base origin ⟨target, frames, .done (.error ⟨position, .tooDeep⟩), cursor⟩

section

variable {base : List Kind} {origin cursor : Cursor} {target : Option String} {frames : List Frame}

theorem reads_take {front : List Kind} {kind : Kind} (h : origin.Reads cursor front)
    (hkind : cursor.current.kind = kind) (hne : kind ≠ .finish) :
    origin.Reads cursor.advance (front ++ [kind]) :=
  h.trans (h.ended.reads_advance hkind hne)

theorem onTrack_enter {state : State} {frames : List Frame} {focus : Focus}
    (h : OnTrack base origin { state with frames, focus }) :
    OnTrack base origin (state.enter frames focus) := by
  unfold State.enter
  split
  · exact h
  · exact .tooDeep

theorem onTrack_build {state : State} {frames : List Frame} {expr : Expr} {height position : Nat}
    (h : ∀ parsed, OnTrack base origin { state with frames, focus := .hold parsed }) :
    OnTrack base origin (state.build frames expr height position) := by
  unfold State.build Reader.allowedHeight
  by_cases hle : height ≤ maxHeight
  · rw [if_pos hle]
    exact h _
  · rw [if_neg hle]
    exact .tooDeep

/-- Where nothing but an operand can stand, no kind that opens one is complained of. -/
theorem onTrack_seekOperand {focus : Focus} {front : List Kind} {loose : Nat} (hle : loose ≤ 7)
    (hreads : origin.Reads cursor front) (h : Awaits base frames loose front) :
    OnTrack base origin (State.seekOperand ⟨target, frames, focus, cursor⟩) := by
  have hle' : loose ≤ 8 := Nat.le_succ_of_le hle
  have hleaf : ∀ {kind : Kind} {parsed : Parsed}, cursor.current.kind = kind → kind ≠ .finish →
      Derivable 8 [kind] → OnTrack base origin ⟨target, frames, .hold parsed, cursor.advance⟩ :=
    fun hkind hne hderivable =>
      .hold (hderivable.looser hle') (reads_take hreads hkind hne) h
  unfold State.seekOperand
  dsimp only
  split
  · rename_i hkind
    exact onTrack_enter (.seek (Nat.le_refl 7) (Nat.le_refl 7)
      (reads_take hreads hkind (by simp)) (.sign hle (by simp [signs]) h))
  · rename_i hkind
    exact onTrack_enter (.seek (Nat.le_refl 7) (Nat.le_refl 7)
      (reads_take hreads hkind (by simp)) (.sign hle (by simp [signs]) h))
  · rename_i hkind
    exact onTrack_enter (.start (reads_take hreads hkind (by simp)) (.group hle' h))
  · rename_i hkind
    exact hleaf hkind (by simp) ⟨_, _, .number _⟩
  · rename_i hkind
    exact hleaf hkind (by simp) ⟨_, _, .text _⟩
  · rename_i hkind
    exact hleaf hkind (by simp) ⟨_, _, .bool _⟩
  · rename_i hkind
    exact .word hle' (reads_take hreads hkind (by simp)) h
  · rename_i hminus hbang hparen hnumber htext hbool hname
    refine .unexpected hreads (h.extends_bare hle') fun _ hopens => ?_
    cases hkind : cursor.current.kind with
    | number x => exact hnumber x hkind
    | text s => exact htext s hkind
    | bool b => exact hbool b hkind
    | name name => exact hname name hkind
    | finish =>
        rw [hkind] at hopens
        exact hopens
    | mark mark =>
        rw [hkind] at hopens
        rcases hopens with rfl | rfl | rfl
        · exact hparen hkind
        · exact hminus hkind
        · exact hbang hkind

theorem onTrack_goOn {focus : Focus} {parsed : Parsed} {front kinds : List Kind} {loose : Nat}
    (hkinds : Derivable loose kinds) (hreads : origin.Reads cursor (front ++ kinds))
    (h : Awaits base frames loose front) :
    OnTrack base origin (State.goOn ⟨target, frames, focus, cursor⟩ parsed) := by
  have hne : kinds ≠ [] := by
    obtain ⟨expr, nesting, hderives⟩ := hkinds
    obtain ⟨first, rest, rfl, -⟩ := hderives.opens
    exact List.cons_ne_nil _ _
  have hunexpected : ∀ wanted, OnTrack base origin
      ⟨target, frames, .done (.error (cursor.unexpected wanted)), cursor⟩ := fun wanted =>
    .unexpected hreads (h.extends hkinds) fun hbase => absurd hbase (h.ne_base hne)
  unfold State.goOn
  dsimp only
  -- What was read completes what the topmost frame awaits, so the frame says what it is part of.
  cases h with
  | outermost =>
      dsimp only
      split
      · exact .ok
      · exact hunexpected _
  | @chain _ outer level _ hle h =>
      dsimp only
      split
      · exact .hold (hkinds.looser hle) hreads h
      · rename_i op hop
        obtain ⟨mark, hkind, hop⟩ := ofKind?_eq_some_iff.mp hop
        have hlevel := level_lt_of_operator hop
        have hreads := reads_take hreads hkind (by simp)
        rw [List.append_assoc] at hreads
        exact .seek hlevel (Nat.le_refl _) hreads (.join hle hop hkinds h)
  | @join _ outer level front mark op left _ hle hop hleft h =>
      have hjoined := hleft.join hop hkinds
      have hreads : origin.Reads cursor (front ++ (left ++ .mark mark :: kinds)) := by
        simpa using hreads
      exact onTrack_build fun parsed => .hold hjoined hreads (.chain hle h)
  | @sign _ outer front mark op position hle hop h =>
      have hsigned := (hkinds.sign hop).looser hle
      have hreads : origin.Reads cursor (front ++ (.mark mark :: kinds)) := by simpa using hreads
      exact onTrack_build fun parsed => .hold hsigned hreads h
  | @group _ outer front hle h =>
      dsimp only
      split
      · rename_i hkind
        have hgrouped := hkinds.group.looser hle
        have hreads := reads_take hreads hkind (by simp)
        simp only [List.append_assoc, List.singleton_append] at hreads
        exact .hold hgrouped hreads h
      · exact hunexpected _
  | @argument _ outer front function position arguments parts hle hparts h =>
      rw [List.append_assoc] at hreads
      exact .between hle hparts hkinds hreads h

theorem onTrack_call {state : State} {function : Builtin} {position : Nat}
    {arguments : List Parsed} {front kinds : List Kind} {loose : Nat} (hle : loose ≤ 8)
    (hkinds : Derivable 8 kinds) (hreads : origin.Reads state.cursor (front ++ kinds))
    (h : Awaits base state.frames loose front) :
    OnTrack base origin (state.call function position arguments) :=
  onTrack_build fun _ => .hold (hkinds.looser hle) hreads h

/-- A step on track stays on track. -/
theorem OnTrack.step {state : State} (h : OnTrack base origin state) :
    OnTrack base origin (step state) := by
  cases h with
  | @start target frames cursor front hreads h =>
      unfold Descent.step
      dsimp only
      split
      · rename_i hfinish
        exact .unexpected hreads (h.extends_bare (by omega)) fun _ => by simp [hfinish, Opens]
      · exact .seek (by omega) (Nat.le_refl 1) hreads h
  | @seek target frames cursor level loose front hlevel hle hreads h =>
      unfold Descent.step
      dsimp only
      split
      · rename_i hlt
        exact .seek hlt (Nat.le_succ level) hreads (.chain hle h)
      · exact onTrack_seekOperand (Nat.le_trans hle hlevel) hreads h
  | @word target frames cursor name position loose front hle hreads h =>
      unfold Descent.step
      dsimp only
      split
      · rename_i hkind
        split
        · exact .unknownFunction
        · rename_i function hfunction
          have hreads := reads_take hreads hkind (by simp)
          rw [Reader.name_of_ofName?_eq_some hfunction, List.append_assoc] at hreads
          exact onTrack_enter (.first hle hreads h)
      · exact .hold (Derivable.looser ⟨_, _, .var name⟩ hle) hreads h
  | @first target frames cursor function position loose front hle hreads h =>
      unfold Descent.step
      dsimp only
      split
      · rename_i hkind
        have hreads := reads_take hreads hkind (by simp)
        rw [List.append_assoc] at hreads
        exact onTrack_call hle (derivable_openCall_nil function) hreads h
      · exact .start hreads (.argument hle (by simp) h)
  | @between target frames cursor function position arguments loose front parts last hle hparts
      hlast hreads h =>
      unfold Descent.step
      dsimp only
      split
      · rename_i hkind
        have hreads := reads_take hreads hkind (by simp)
        rw [List.append_assoc, List.append_assoc, ← openCall_concat] at hreads
        refine .start hreads (.argument hle ?_ h)
        simpa [or_imp, forall_and] using ⟨hparts, hlast⟩
      · split
        · rename_i hkind
          have hreads := reads_take hreads hkind (by simp)
          rw [List.append_assoc, List.append_assoc] at hreads
          exact onTrack_call hle (derivable_openCall hparts hlast function) hreads h
        · have hextends : Extends base (front ++ (openCall function parts ++ last)) := by
            have hcalled := (derivable_openCall hparts hlast function).looser hle
            refine @Extends.of_append base _ [.mark .rightParen] ?_
            simpa using h.extends hcalled
          have hne : openCall function parts ++ last ≠ [] := List.cons_ne_nil _ _
          exact .unexpected hreads hextends fun hbase => absurd hbase (h.ne_base hne)
  | hold hkinds hreads h => exact onTrack_goOn hkinds hreads h
  | ok => exact .ok
  | unexpected hreads hextends hopens => exact .unexpected hreads hextends hopens
  | unknownFunction => exact .unknownFunction
  | tooDeep => exact .tooDeep

theorem OnTrack.iterate {state : State} (h : OnTrack base origin state) (steps : Nat) :
    OnTrack base origin (Descent.step^[steps] state) :=
  Function.Iterate.rec (OnTrack base origin) h (fun _ => OnTrack.step) steps

end

/-! ### The same complaint whatever follows -/

/-- Two states are the same but for the tokens after this one, which neither has taken. -/
def Twins (token : Token) (back others : List Token) (state other : State) : Prop :=
  ∃ ahead place, state.cursor.rest = ahead ++ token :: back
    ∧ place.rest = ahead ++ token :: others ∧ other = { state with cursor := place }

section

variable {token : Token} {back others : List Token} {state other : State}

/-- States that differ in tokens not yet looked at still do after a step. -/
theorem Twins.step (h : Twins token back others state other)
    (hlength : back.length < (step state).cursor.rest.length) :
    Twins token back others (Descent.step state) (Descent.step other) := by
  obtain ⟨ahead, place, hrest, hplace, rfl⟩ := h
  obtain ⟨target, frames, focus, cursor⟩ := state
  dsimp only at hrest ⊢
  have hcurrent : place.current = cursor.current := by
    rw [Cursor.current, Cursor.current, hrest, hplace]
    cases ahead <;> rfl
  rcases @samePlaced_step target frames focus cursor place hcurrent with ⟨hstay, hother⟩
    | ⟨htake, hother⟩
  · exact ⟨ahead, place, by rw [hstay, hrest], hplace, hother⟩
  · rw [htake] at hlength
    obtain ⟨rest, last, past⟩ := cursor
    obtain ⟨restPlace, lastPlace, pastPlace⟩ := place
    dsimp only at hrest hplace
    subst hrest hplace
    cases ahead with
    -- The token itself would be taken.
    | nil => exact absurd hlength (Nat.lt_irrefl _)
    | cons first ahead =>
        have hnext :
            (Cursor.advance ⟨first :: ahead ++ token :: others, lastPlace, pastPlace⟩).current
              = (Cursor.advance ⟨first :: ahead ++ token :: back, last, past⟩).current := by
          cases ahead <;> rfl
        exact ⟨ahead, _, by rw [htake]; rfl, rfl, hother hnext⟩

theorem Twins.iterate (h : Twins token back others state other) {steps : Nat}
    (hlength : back.length < (Descent.step^[steps] state).cursor.rest.length) :
    Twins token back others (Descent.step^[steps] state) (Descent.step^[steps] other) := by
  induction steps with
  | zero => exact h
  | succ steps ih =>
      rw [Function.iterate_succ_apply'] at hlength ⊢
      rw [Function.iterate_succ_apply']
      have hone : Reaches (Descent.step^[steps] state)
          (Descent.step (Descent.step^[steps] state)) := (Reaches.refl _).step
      exact (ih (Nat.lt_of_lt_of_le hlength hone.length_le)).step hlength

theorem focus_step_of_done {result : Except SyntaxError Statement}
    (h : state.focus = .done result) : (Descent.step state).focus = .done result := by
  simp only [Descent.step, h]

theorem focus_iterate_of_done {result : Except SyntaxError Statement}
    (h : state.focus = .done result) (steps : Nat) :
    (Descent.step^[steps] state).focus = .done result :=
  Function.Iterate.rec (State.focus · = .done result) h (fun _ => focus_step_of_done) steps

/-- A run ends in one way. -/
theorem done_unique {first second : Except SyntaxError Statement} {steps more : Nat}
    (hfirst : (Descent.step^[steps] state).focus = .done first)
    (hsecond : (Descent.step^[more] state).focus = .done second) : first = second := by
  have hboth := focus_iterate_of_done hfirst more
  rw [← Function.iterate_add_apply, Nat.add_comm, Function.iterate_add_apply,
    focus_iterate_of_done hsecond] at hboth
  exact (Focus.done.inj hboth).symm

/-- Before the statements made of tokens that differ after this one, the machine is in one state. -/
theorem twins_start {front : List Token} (hfront : front ≠ [])
    (hlength : back.length < (start (front ++ token :: back)).cursor.rest.length) :
    Twins token back others (start (front ++ token :: back))
      (start (front ++ token :: others)) := by
  obtain ⟨first, front, rfl⟩ := List.exists_cons_of_ne_nil hfront
  by_cases hassign : ∃ target,
      (Cursor.ofTokens (first :: front ++ token :: back)).current.kind = .name target
        ∧ (Cursor.ofTokens (first :: front ++ token :: back)).following.kind = .mark .assign
  · obtain ⟨target, hname, hassign⟩ := hassign
    rw [start_of_assign hname hassign] at hlength ⊢
    cases front with
    | nil => exact absurd hlength (Nat.lt_irrefl _)
    | cons second front =>
        have hother : start (first :: second :: front ++ token :: others) = _ :=
          start_of_assign hname hassign
        rw [hother]
        exact ⟨front, _, rfl, rfl, rfl⟩
  · have hnot : ∀ target,
        (Cursor.ofTokens (first :: front ++ token :: back)).current.kind = .name target →
        (Cursor.ofTokens (first :: front ++ token :: back)).following.kind ≠ .mark .assign :=
      fun target hname hmark => hassign ⟨target, hname, hmark⟩
    have hother : start (first :: front ++ token :: others)
        = ⟨none, [], .start, .ofTokens (first :: front ++ token :: others)⟩ := by
      refine start_of_not_assign ?_
      cases front <;> exact hnot
    rw [start_of_not_assign hnot, hother]
    exact ⟨first :: front, _, rfl, rfl, rfl⟩

end

end Descent

/-! ### What the grammar has is refused for its limits alone -/

section

variable {cursor : Cursor} {finish : Token} {body : List Kind}

/-- What can be derived is read to its end, or complained of for its nesting alone. -/
theorem outermost_of_derivable (hfinish : finish.kind = .finish)
    (hspans : cursor.Spans (.beforeFinish finish) body) (h : Derivable 1 body) :
    (∃ read, Reader.outermost cursor = .ok read ∧ read.2.expectFinish = .ok ())
      ∨ ∃ position, Reader.outermost cursor = .error ⟨position, .tooDeep⟩ := by
  obtain ⟨expr, nesting, hderives⟩ := h
  have hleads := Reader.leadsTo_outermost hderives hspans (Reader.stops_beforeFinish hfinish)
  by_cases hkept : Reader.Fits maxNesting nesting expr
  · exact .inl ⟨_, hleads.eq_of_kept hkept, expectFinish_eq_ok_iff.mpr hfinish⟩
  · exact .inr (hleads.tooDeep_of_not_kept hkept)

end

theorem exists_tokens_of_append {tokens : List Token} {body : List Kind}
    (h : tokens.map Token.kind = body ++ [.finish]) :
    ∃ front finish, tokens = front ++ [finish] ∧ front.map Token.kind = body
      ∧ finish.kind = .finish := by
  obtain ⟨front, last, rfl, hfront, hlast⟩ := List.map_eq_append_iff.mp h
  obtain ⟨finish, rest, rfl, hfinish, hrest⟩ := List.map_eq_cons_iff.mp hlast
  obtain rfl := List.map_eq_nil_iff.mp hrest
  exact ⟨front, finish, rfl, hfront, hfinish⟩

theorem Expr.ofTokens_ne_expected {tokens : List Token} {position : Nat}
    {wanted : SyntaxError.Wanted} {found : Kind} (h : IsExpression (tokens.map Token.kind)) :
    Expr.ofTokens tokens ≠ .error ⟨position, .expected wanted found⟩ := by
  obtain ⟨body, hkinds, hbody⟩ := h
  obtain ⟨front, finish, rfl, rfl, hfinish⟩ := exists_tokens_of_append hkinds
  unfold Expr.ofTokens
  rcases outermost_of_derivable hfinish (Cursor.spans_ofTokens front finish) hbody with
    ⟨read, hread, hend⟩ | ⟨place, hread⟩
  · simp [hread, hend, bind, Except.bind]
  · simp [hread, bind, Except.bind]

theorem Statement.ofTokens_ne_expected {tokens : List Token} {position : Nat}
    {wanted : SyntaxError.Wanted} {found : Kind} (h : IsStatement (tokens.map Token.kind)) :
    Statement.ofTokens tokens ≠ .error ⟨position, .expected wanted found⟩ := by
  rcases h with hexpression | ⟨target, value, hkinds, body, rfl, hbody⟩
  · have hagain := hexpression
    obtain ⟨body, hkinds, expr, nesting, hderives⟩ := hexpression
    obtain ⟨front, finish, rfl, rfl, hfinish⟩ := exists_tokens_of_append hkinds
    have hothers : ∀ target rest, front.map Token.kind ≠ .name target :: .mark .assign :: rest := by
      intro target rest hassign
      exact hderives.not_delimits (.mark .assign) (by simp [hassign]) (.inr (.inr rfl))
    rw [Statement.ofTokens_of_not_assign hfinish hothers]
    intro herror
    exact Expr.ofTokens_ne_expected hagain (map_eq_error_iff.mp herror)
  · have hsplit : tokens.map Token.kind
        = (.name target :: .mark .assign :: body) ++ [.finish] := hkinds
    obtain ⟨front, finish, rfl, hfront, hfinish⟩ := exists_tokens_of_append hsplit
    have hspans := Cursor.spans_ofTokens front finish
    rw [hfront] at hspans
    rw [Statement.ofTokens_of_assign hfront]
    rcases outermost_of_derivable hfinish hspans.advance.advance hbody with
      ⟨read, hread, hend⟩ | ⟨place, hread⟩
    · simp [hread, hend, bind, Except.bind]
    · simp [hread, bind, Except.bind]

/-! ### The complaint -/

/-- A complaint that something else is wanted is about the first token up to which nothing of the
language begins so; the other complaints of the parser are about calls of what is no function and
about the limits. -/
def BlamesFirstHopeless (language : List Kind → Prop) (tokens : List Token) (error : SyntaxError) :
    Prop :=
  match error.cause with
  | .expected wanted found => ∃ front token back, tokens = front ++ token :: back
      ∧ error.position = token.position ∧ found = token.kind
      ∧ error.message = SyntaxError.messageAt token.position
          ("expected " ++ wanted.describe ++ ", found " ++ token.kind.describe)
      ∧ (∃ more, language (front.map Token.kind ++ more))
      ∧ ∀ more, ¬ language (front.map Token.kind ++ token.kind :: more)
  | .unknownFunction _ | .tooDeep => True
  | .strayCharacter _ | .loneCharacter _ | .unknownEscape _ | .openText => False

namespace Descent

section

variable {base : List Kind} {origin : Cursor} {state : State} {error : SyntaxError}

/-- A complaint on track is about the first token that fits nothing. -/
theorem OnTrack.blames (h : OnTrack base origin state) (hfocus : state.focus = .done (.error error))
    {language : List Kind → Prop}
    (hlanguage : ∀ body, Derivable 1 body → language (base ++ body ++ [.finish]))
    (hhopeless : ∀ front token back, origin.rest = front ++ token :: back →
      state.cursor.rest = token :: back → (front.map Token.kind = base → ¬ Opens token.kind) →
      (∃ wanted, error = ⟨token.position, .expected wanted token.kind⟩) →
      ∀ more, ¬ language (front.map Token.kind ++ token.kind :: more)) :
    BlamesFirstHopeless language origin.rest error := by
  cases h with
  | unknownFunction | tooDeep =>
      cases hfocus
      trivial
  | @unexpected target frames cursor wanted front hreads hextends hopens =>
      cases hfocus
      obtain ⟨taken, hspans, rfl⟩ := hreads.spans
      obtain ⟨token, back, hrest⟩ : ∃ token back, cursor.rest = token :: back := by
        obtain ⟨body, hbody, -⟩ := hreads.ended
        rw [hbody]
        exact List.exists_cons_of_ne_nil (by simp)
      have hcurrent : cursor.current = token := by rw [Cursor.current, hrest]; rfl
      have horigin : origin.rest = taken ++ token :: back := by
        rw [hspans, hrest]
      rw [hcurrent] at hopens
      have herror : cursor.unexpected wanted
          = ⟨token.position, .expected wanted token.kind⟩ := by rw [Cursor.unexpected, hcurrent]
      rw [herror]
      refine ⟨taken, token, back, horigin, rfl, rfl, rfl, ?_, ?_⟩
      · obtain ⟨more, body, hmore, hbody⟩ := hextends
        refine ⟨more ++ [.finish], ?_⟩
        rw [← List.append_assoc, hmore]
        exact hlanguage body hbody
      · exact hhopeless taken token back horigin hrest hopens ⟨wanted, herror⟩
  | _ => cases hfocus

end

end Descent

variable {tokens : List Token} {finish : Token}

open Descent in
/-- A complaint about an expression is about the first token that fits nothing. -/
theorem Expr.blames_ofTokens (hfinish : finish.kind = .finish)
    (htokens : ∀ token ∈ tokens, token.kind ≠ .finish) {error : SyntaxError}
    (h : Expr.ofTokens (tokens ++ [finish]) = .error error) :
    BlamesFirstHopeless IsExpression (tokens ++ [finish]) error := by
  obtain ⟨_, ⟨steps, rfl⟩, hfocus⟩ := reaches_done_expr (tokens ++ [finish])
  rw [h] at hfocus
  have hended := Cursor.isEnded_ofTokens hfinish htokens
  have htrack : OnTrack [] (Cursor.ofTokens (tokens ++ [finish]))
      ⟨none, [], .start, Cursor.ofTokens (tokens ++ [finish])⟩ := .start (.refl hended) .outermost
  refine (htrack.iterate steps).blames hfocus (fun body hbody => ⟨body, rfl, hbody⟩) ?_
  rintro front token back hlist hrest - ⟨wanted, rfl⟩ more hmore
  have htwins : Twins token back (tokensOf more) ⟨none, [], .start, .ofTokens (tokens ++ [finish])⟩
      ⟨none, [], .start, .ofTokens (front ++ token :: tokensOf more)⟩ :=
    ⟨front, _, hlist, rfl, rfl⟩
  obtain ⟨ahead, place, -, -, hother⟩ := @Twins.iterate _ _ _ _ _ htwins steps (by simp [hrest])
  obtain ⟨_, ⟨others, rfl⟩, hothers⟩ := reaches_done_expr (front ++ token :: tokensOf more)
  have hsame := done_unique (by rw [hother]; exact hfocus) hothers
  refine Expr.ofTokens_ne_expected ?_ (map_eq_error_iff.mp hsame.symm)
  rwa [List.map_append, List.map_cons, kinds_tokensOf]

theorem opens_of_isStatement {kind : Kind} {more : List Kind} (h : IsStatement (kind :: more)) :
    Opens kind := by
  rcases h with ⟨body, hbody, expr, nesting, hderives⟩ | ⟨target, value, hassign, -⟩
  · obtain ⟨first, rest, rfl, hopens⟩ := hderives.opens
    obtain ⟨rfl, -⟩ := List.cons.inj hbody
    exact hopens
  · obtain ⟨rfl, -⟩ := List.cons.inj hassign
    trivial

open Descent in
/-- The expression of a statement begins after a target or with the first token. -/
theorem onTrack_start {origin : Cursor} (horigin : origin = .ofTokens (tokens ++ [finish]))
    (hended : origin.IsEnded) :
    ∃ base, OnTrack base origin (start (tokens ++ [finish]))
      ∧ (∀ body, Derivable 1 body → IsStatement (base ++ body ++ [.finish]))
      ∧ (base = [] ∨ (start (tokens ++ [finish])).cursor.rest.length < origin.rest.length) := by
  subst horigin
  by_cases hassign : ∃ target,
      (Cursor.ofTokens (tokens ++ [finish])).current.kind = .name target
        ∧ (Cursor.ofTokens (tokens ++ [finish])).following.kind = .mark .assign
  · obtain ⟨target, hname, hassign⟩ := hassign
    rw [start_of_assign hname hassign]
    rw [following_eq] at hassign
    have hfirst := hended.reads_advance hname (by simp)
    have hsecond := hfirst.ended.reads_advance hassign (by simp)
    have hboth := hfirst.trans hsecond
    refine ⟨_, .start hboth .outermost, fun body hbody => .inr ⟨target, _, rfl, body, rfl, hbody⟩,
      .inr ?_⟩
    have hlength := hboth.spans.length_rest
    simp only [List.length_append, List.length_cons, List.length_nil] at hlength ⊢
    omega
  · rw [start_of_not_assign fun target hname hmark => hassign ⟨target, hname, hmark⟩]
    exact ⟨[], .start (.refl hended) .outermost, fun body hbody => .inl ⟨body, rfl, hbody⟩,
      .inl rfl⟩

open Descent in
/-- A complaint about a statement is about the first token that fits nothing. -/
theorem Statement.blames_ofTokens (hfinish : finish.kind = .finish)
    (htokens : ∀ token ∈ tokens, token.kind ≠ .finish) {error : SyntaxError}
    (h : Statement.ofTokens (tokens ++ [finish]) = .error error) :
    BlamesFirstHopeless IsStatement (tokens ++ [finish]) error := by
  obtain ⟨_, ⟨steps, rfl⟩, hfocus⟩ := reaches_done_ofTokens (tokens ++ [finish])
  rw [h] at hfocus
  obtain ⟨base, htrack, hlanguage, hbase⟩ :=
    onTrack_start rfl (Cursor.isEnded_ofTokens hfinish htokens)
  refine (htrack.iterate steps).blames hfocus hlanguage ?_
  intro front token back hlist hrest hopens hexpected more hmore
  obtain ⟨wanted, rfl⟩ := hexpected
  have hlist : tokens ++ [finish] = front ++ token :: back := hlist
  have hreaches : Reaches (start (tokens ++ [finish])) _ := ⟨steps, rfl⟩
  have hlength := hreaches.length_le
  rw [hrest, List.length_cons] at hlength
  by_cases hfront : front = []
  -- Assignments are told by the second token, so the run may depend on what follows the first one.
  -- But no token that opens an expression is complained of there.
  · subst hfront
    rcases hbase with rfl | hless
    · exact hopens rfl (opens_of_isStatement hmore)
    · have hwhole : (Cursor.ofTokens (tokens ++ [finish])).rest.length = back.length + 1 :=
        congrArg List.length hlist
      omega
  · rw [hlist] at hlength hfocus hrest
    have htwins := @twins_start token back (tokensOf more) front hfront hlength
    obtain ⟨ahead, place, -, -, hother⟩ := @Twins.iterate _ _ _ _ _ htwins steps (by simp [hrest])
    obtain ⟨_, ⟨others, rfl⟩, hothers⟩ := reaches_done_ofTokens (front ++ token :: tokensOf more)
    have hsame := done_unique (by rw [hother]; exact hfocus) hothers
    refine Statement.ofTokens_ne_expected ?_ hsame.symm
    rwa [List.map_append, List.map_cons, kinds_tokensOf]

/-- **The first hopeless token.** Where tokens with their only end mark make no expression, or no
statement, because something else is wanted than what is found, then the complaint is about the
first token up to which the grammar without its limits has nothing that begins so. -/
theorem error_at_first_hopeless_token (hfinish : finish.kind = .finish)
    (htokens : ∀ token ∈ tokens, token.kind ≠ .finish) (error : SyntaxError) :
    (Expr.ofTokens (tokens ++ [finish]) = .error error →
        BlamesFirstHopeless IsExpression (tokens ++ [finish]) error)
      ∧ (Statement.ofTokens (tokens ++ [finish]) = .error error →
        BlamesFirstHopeless IsStatement (tokens ++ [finish]) error) :=
  ⟨Expr.blames_ofTokens hfinish htokens, Statement.blames_ofTokens hfinish htokens⟩

/-- After the minus within the call an operand may follow, but no parenthesis that closes. -/
theorem error_at_first_hopeless_token_in_call :
    let tokens : List Token := [⟨.name "x", 0⟩, ⟨.mark .assign, 2⟩, ⟨.name "str", 4⟩,
      ⟨.mark .leftParen, 7⟩, ⟨.name "a", 8⟩, ⟨.mark .comma, 9⟩, ⟨.mark .minus, 11⟩,
      ⟨.mark .rightParen, 12⟩]
    let finish : Token := ⟨.finish, 13⟩
    let error : SyntaxError := ⟨12, .expected .expression (.mark .rightParen)⟩
    finish.kind = .finish ∧ (∀ token ∈ tokens, token.kind ≠ .finish)
      ∧ Statement.ofTokens (tokens ++ [finish]) = .error error
      ∧ BlamesFirstHopeless IsStatement (tokens ++ [finish]) error := by
  intro tokens finish error
  have htokens : ∀ token ∈ tokens, token.kind ≠ .finish := by decide
  exact ⟨rfl, htokens, rfl, (error_at_first_hopeless_token rfl htokens error).2 rfl⟩

end Flowchart
