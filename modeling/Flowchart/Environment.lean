import Flowchart.Value

/-!
Environments: the variables of a run and their values. The bindings are kept in the order of their
names, each name once, so that environments with the same bindings are the same environment.
-/

namespace Flowchart

/-- The bindings with a name bound to a value, in the place of an older binding or between its
neighbours. -/
def insertBinding (name : String) (value : Value) :
    List (String × Value) → List (String × Value)
  | [] => [(name, value)]
  | binding :: rest =>
    if name < binding.1 then (name, value) :: binding :: rest
    else if name = binding.1 then (name, value) :: rest
    else binding :: insertBinding name value rest

theorem mem_insertBinding {name : String} {value : Value} {bindings : List (String × Value)}
    {binding : String × Value} (h : binding ∈ insertBinding name value bindings) :
    binding = (name, value) ∨ binding ∈ bindings := by
  induction bindings with
  | nil => simpa [insertBinding] using h
  | cons head rest ih =>
    simp only [insertBinding] at h
    split at h
    · simpa using h
    · split at h <;> grind

/-- Bindings stay in the order of their names. -/
theorem pairwise_insertBinding (name : String) (value : Value) {bindings : List (String × Value)}
    (h : bindings.Pairwise (·.1 < ·.1)) :
    (insertBinding name value bindings).Pairwise (·.1 < ·.1) := by
  induction bindings with
  | nil => simp [insertBinding]
  | cons head rest ih =>
    obtain ⟨hhead, hrest⟩ := List.pairwise_cons.1 h
    simp only [insertBinding]
    split
    · rename_i hlt
      refine List.pairwise_cons.2 ⟨fun binding hmem => ?_, h⟩
      obtain rfl | hmem := List.mem_cons.1 hmem
      · exact hlt
      · exact String.lt_trans hlt (hhead _ hmem)
    · rename_i hnot
      split
      · rename_i heq
        exact List.pairwise_cons.2 ⟨fun binding hmem => heq ▸ hhead _ hmem, hrest⟩
      · rename_i hne
        have hlt : head.1 < name :=
          Std.lt_of_le_of_ne (String.not_lt.1 hnot) (fun heq => hne heq.symm)
        refine List.pairwise_cons.2 ⟨fun binding hmem => ?_, ih hrest⟩
        obtain rfl | hmem := mem_insertBinding hmem
        · exact hlt
        · exact hhead _ hmem

theorem lookup_binding (binding : String × Value) (rest : List (String × Value)) (name : String) :
    (binding :: rest).lookup name = if name = binding.1 then some binding.2 else rest.lookup name := by
  obtain ⟨key, value⟩ := binding
  by_cases h : name = key
  · simp [h]
  · rw [List.lookup_cons, beq_false_of_ne h, if_neg h]

theorem lookup_insertBinding (name other : String) (value : Value)
    (bindings : List (String × Value)) :
    (insertBinding name value bindings).lookup other
      = if other = name then some value else bindings.lookup other := by
  induction bindings with
  | nil => rw [insertBinding, lookup_binding]
  | cons head rest ih =>
    rw [insertBinding]
    by_cases hbefore : name < head.1
    · rw [if_pos hbefore, lookup_binding]
    by_cases hsame : name = head.1
    · rw [if_neg hbefore, if_pos hsame, lookup_binding, lookup_binding, ← hsame]
      by_cases hother : other = name <;> simp [hother]
    · rw [if_neg hbefore, if_neg hsame, lookup_binding, lookup_binding, ih]
      by_cases hother : other = head.1
      · rw [if_pos hother, if_pos hother, if_neg (by rw [hother]; exact Ne.symm hsame)]
      · rw [if_neg hother, if_neg hother]

/-- The variables that have a value, in the order of their names. -/
structure Environment where
  bindings : List (String × Value)
  sorted : bindings.Pairwise (·.1 < ·.1)
  deriving DecidableEq

namespace Environment

def empty : Environment := ⟨[], .nil⟩

def get? (environment : Environment) (name : String) : Option Value :=
  environment.bindings.lookup name

def set (environment : Environment) (name : String) (value : Value) : Environment :=
  ⟨insertBinding name value environment.bindings,
    pairwise_insertBinding name value environment.sorted⟩

/-- A variable that was set has the new value, and every other one has what it had. -/
theorem get?_set (environment : Environment) (name other : String) (value : Value) :
    (environment.set name value).get? other
      = if other = name then some value else environment.get? other :=
  lookup_insertBinding name other value environment.bindings

def size (environment : Environment) : Nat := environment.bindings.length

def isEmpty (environment : Environment) : Bool := environment.bindings.isEmpty

end Environment

end Flowchart
