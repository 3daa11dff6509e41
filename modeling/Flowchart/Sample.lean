import Flowchart.Definition

/-!
Programs that come with the command line.
-/

namespace Flowchart.Sample

def sum : Definition where
  nodes :=
    [⟨0, "terminal", "START", ""⟩,
     ⟨1, "process", "INIT", "i = 1; sum = 0"⟩,
     ⟨2, "decision", "i <= 5?", "i <= 5"⟩,
     ⟨3, "process", "ACCUMULATE", "sum = sum + i; i = i + 1"⟩,
     ⟨4, "connector", "", ""⟩,
     ⟨5, "io", "PRINT SUM", "print(\"Sum 1..5 = \" + sum)"⟩,
     ⟨6, "terminal", "END", ""⟩]
  edges :=
    [⟨0, 1, none⟩, ⟨1, 2, none⟩, ⟨2, 3, some "Y"⟩, ⟨3, 4, none⟩, ⟨4, 2, none⟩,
     ⟨2, 5, some "N"⟩, ⟨5, 6, none⟩]

def greeting : Definition where
  nodes :=
    [⟨0, "start", "START", ""⟩,
     ⟨1, "io", "ASK NAME", "input(\"Enter name:\", name)"⟩,
     ⟨2, "io", "GREET", "print(\"Hello, \" + name + \"!\")"⟩,
     ⟨3, "end", "END", ""⟩]
  edges := [⟨0, 1, none⟩, ⟨1, 2, none⟩, ⟨2, 3, none⟩]

def all : List (String × Definition) := [("sum", sum), ("greeting", greeting)]

def names : List String := all.map Prod.fst

def ofName? (name : String) : Option Definition := all.lookup name

end Flowchart.Sample
