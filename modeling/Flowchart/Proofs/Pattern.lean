import Mathlib
import Flowchart.Text.Blank

/-!
# Patterns with groups

A pattern can match a text in several ways: runs may be longer or shorter, parts may be left out.
Its ways are tried in an order, and the first that matches the whole text says what its groups hold.
Where going on from a place is no easier with more of a run left, a run that takes what it can never
has to give anything back.
-/

namespace Flowchart

/-- What is looked for, in the order in which its alternatives are tried. A group keeps, under its
number, what is matched inside it. -/
inductive Pattern where
  | empty
  | one (allowed : Char → Bool)
  /-- As many characters as there are, or as few as will do. -/
  | run (allowed : Char → Bool) (greedy : Bool)
  | seq (first second : Pattern)
  | either (first second : Pattern)
  /-- Rather with it than without. -/
  | optional (inner : Pattern)
  | group (number : Nat) (inner : Pattern)

namespace Pattern

structure Place where
  groups : List (Nat × List Char)
  rest : List Char

/-- What may be left behind a run, the shortest run first. -/
def afterRuns (allowed : Char → Bool) : List Char → List (List Char)
  | [] => [[]]
  | c :: cs => (c :: cs) :: if allowed c then afterRuns allowed cs else []

/-- The places where a match that starts at a place can end, the preferred one first. -/
def ends : Pattern → Place → List Place
  | empty, place => [place]
  | one allowed, ⟨groups, rest⟩ =>
    match rest with
    | [] => []
    | c :: cs => if allowed c then [⟨groups, cs⟩] else []
  | run allowed greedy, ⟨groups, rest⟩ =>
    let after := afterRuns allowed rest
    (if greedy then after.reverse else after).map (Place.mk groups)
  | seq first second, place => (first.ends place).flatMap second.ends
  | either first second, place => first.ends place ++ second.ends place
  | optional inner, place => inner.ends place ++ [place]
  | group number inner, place =>
    (inner.ends place).map fun after =>
      ⟨(number, place.rest.take (place.rest.length - after.rest.length)) :: after.groups,
        after.rest⟩

def match? (pattern : Pattern) (cs : List Char) : Option (List (Nat × List Char)) :=
  (pattern.ends ⟨[], cs⟩).findSome? fun place =>
    if place.rest = [] then some place.groups else none

def exactly (c : Char) : Pattern := one (· == c)

def word (cs : List Char) : Pattern := cs.foldr (fun c => seq (one (·.toLower == c))) empty

def blanks : Pattern := run Text.isBlank true

variable {β : Type} {allowed : Char → Bool} {c : Char} {cs : List Char}
variable {groups : List (Nat × List Char)} {place : Place} {goOn : Place → Option β}

/-! ### One way after the other -/

/-- What the first end yields from which one can go on. -/
def first? (pattern : Pattern) (goOn : Place → Option β) (place : Place) : Option β :=
  (pattern.ends place).findSome? goOn

/-- After the first part one goes on with the second. -/
theorem first?_seq {first second : Pattern} :
    (seq first second).first? goOn = first.first? (second.first? goOn) := by
  funext place
  simp only [first?, ends]
  induction first.ends place with
  | nil => rfl
  | cons after later ih =>
      rw [List.flatMap_cons, List.findSome?_append, ih, List.findSome?_cons]
      change ((second.first? goOn after).or _) = _
      cases second.first? goOn after <;> rfl

/-- The second way is tried only if the first leads nowhere. -/
theorem first?_either {first second : Pattern} :
    (either first second).first? goOn place
      = (first.first? goOn place <|> second.first? goOn place) := by
  simp [first?, ends, List.findSome?_append]

theorem first?_optional {inner : Pattern} :
    (optional inner).first? goOn place = (inner.first? goOn place <|> goOn place) := by
  simp [first?, ends, List.findSome?_append]

theorem first?_group {number : Nat} {inner : Pattern} :
    (group number inner).first? goOn place
      = inner.first? (fun after => goOn ⟨(number,
          place.rest.take (place.rest.length - after.rest.length)) :: after.groups, after.rest⟩)
        place := by
  simp [first?, ends, List.findSome?_map, Function.comp_def]

theorem first?_one :
    (one allowed).first? goOn ⟨groups, c :: cs⟩
      = if allowed c then goOn ⟨groups, cs⟩ else none := by
  unfold first? ends
  dsimp only
  split <;> simp

theorem first?_one_nil : (one allowed).first? goOn ⟨groups, []⟩ = none := rfl

theorem first?_exactly {d : Char} :
    (exactly d).first? goOn ⟨groups, c :: cs⟩ = if c = d then goOn ⟨groups, cs⟩ else none := by
  simp [exactly, first?_one]

/-! ### Runs -/

theorem first?_run_nil {greedy : Bool} :
    (run allowed greedy).first? goOn ⟨groups, []⟩ = goOn ⟨groups, []⟩ := by
  cases greedy <;> simp [first?, ends, afterRuns]

/-- A greedy run takes a character before it tries to stop. -/
theorem first?_greedy_cons :
    (run allowed true).first? goOn ⟨groups, c :: cs⟩
      = if allowed c then
          ((run allowed true).first? goOn ⟨groups, cs⟩ <|> goOn ⟨groups, c :: cs⟩)
        else goOn ⟨groups, c :: cs⟩ := by
  simp only [first?, ends, afterRuns, if_true]
  split <;> simp [List.findSome?_append]

/-- A lazy run tries to stop before it takes a character. -/
theorem first?_lazy_cons :
    (run allowed false).first? goOn ⟨groups, c :: cs⟩
      = (goOn ⟨groups, c :: cs⟩
        <|> if allowed c then (run allowed false).first? goOn ⟨groups, cs⟩ else none) := by
  simp only [first?, ends, afterRuns, Bool.false_eq_true, if_false, List.map_cons,
    List.findSome?_cons]
  cases goOn ⟨groups, c :: cs⟩ with
  | some result => rfl
  | none => by_cases hallowed : allowed c <;> simp [hallowed]

/-- A run that takes what it can takes all there is, if going on is no easier with more left. -/
theorem first?_greedy
    (h : ∀ d rest, allowed d → goOn ⟨groups, rest⟩ = none → goOn ⟨groups, d :: rest⟩ = none) :
    (run allowed true).first? goOn ⟨groups, cs⟩ = goOn ⟨groups, cs.dropWhile allowed⟩ := by
  have hearlier : ∀ cs, goOn ⟨groups, cs.dropWhile allowed⟩ = none → goOn ⟨groups, cs⟩ = none := by
    intro cs
    induction cs with
    | nil => exact id
    | cons c cs ih =>
        intro hnone
        by_cases hallowed : allowed c
        · rw [List.dropWhile_cons_of_pos hallowed] at hnone
          exact h c cs hallowed (ih hnone)
        · rwa [List.dropWhile_cons_of_neg hallowed] at hnone
  induction cs with
  | nil => exact first?_run_nil
  | cons c cs ih =>
      rw [first?_greedy_cons, ih]
      by_cases hallowed : allowed c
      · rw [if_pos hallowed, List.dropWhile_cons_of_pos hallowed]
        cases hlong : goOn ⟨groups, cs.dropWhile allowed⟩ with
        | some result => rfl
        | none => exact h c cs hallowed (hearlier cs hlong)
      · rw [if_neg hallowed, List.dropWhile_cons_of_neg hallowed]

/-- What a group takes is the front of the text up to where the match inside it ends. -/
theorem take_before {front rest : List Char} (h : front ++ rest = cs) :
    cs.take (cs.length - rest.length) = front := by
  simp [← h]

theorem match?_map {α : Type} (pattern : Pattern) (f : List (Nat × List Char) → α) :
    (pattern.match? cs).map f
      = pattern.first? (fun place => if place.rest = [] then some (f place.groups) else none)
          ⟨[], cs⟩ := by
  unfold match? first?
  induction pattern.ends ⟨[], cs⟩ with
  | nil => rfl
  | cons place later ih =>
      rw [List.findSome?_cons, List.findSome?_cons, ← ih]
      by_cases hrest : place.rest = [] <;> simp [hrest]

end Pattern

end Flowchart
