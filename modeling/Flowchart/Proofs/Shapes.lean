import Mathlib
import Flowchart.Definition
import Flowchart.Proofs.Cursor
import Flowchart.Proofs.DirectiveLanguage
import Flowchart.Proofs.Listing

/-!
# What shapes and labels mean

A drawn program is built in two stages. Every shape must have a meaning, by an alias or by itself,
and the first one without is complained about; then the nodes, each of the kind its shape stands
for, and the edges, tagged where they leave a decision, are made a graph. Names of shapes and labels
of edges are compared without the blanks around them and without regard to the case of basic Latin
letters.
-/

namespace Flowchart

/-! ### Texts that are compared alike -/

namespace Text

open Directive (IsBlanks)

def Surrounds (s : String) (core : List Char) : Prop :=
  ∃ before after, IsBlanks before ∧ IsBlanks after ∧ s.toList = before ++ (core ++ after)

/-- Two texts differ at most in the blanks around and in the case of basic Latin letters. -/
def Resembles (s t : String) : Prop :=
  ∃ core other, Surrounds s core ∧ Surrounds t other
    ∧ core.map Char.toLower = other.map Char.toLower

theorem isBlank_eq_false_of_visible {c : Char} (hlow : 32 < c.toNat) (hhigh : c.toNat < 128) :
    isBlank c = false := by
  have hspace : c ≠ ' ' := by
    rintro rfl
    exact absurd hlow (by decide)
  simp only [isBlank, CodeRanges.contains, blankRanges, List.any_cons, List.any_nil]
  simp only [hspace, decide_false, Bool.false_or, Bool.or_false, Bool.or_eq_false_iff,
    Bool.and_eq_false_iff, decide_eq_false_iff_not]
  omega

theorem toNat_toLower (c : Char) :
    c.toLower.toNat = if 65 ≤ c.toNat ∧ c.toNat ≤ 90 then c.toNat + 32 else c.toNat := by
  by_cases hcapital : c.val ≥ 'A'.val ∧ c.val ≤ 'Z'.val
  · have hrange : 65 ≤ c.toNat ∧ c.toNat ≤ 90 := hcapital
    rw [Char.toLower, dif_pos hcapital, if_pos hrange]
    change (c.toNat + 32) % 4294967296 = _
    omega
  · have hrange : ¬ (65 ≤ c.toNat ∧ c.toNat ≤ 90) := hcapital
    rw [Char.toLower, dif_neg hcapital, if_neg hrange]

theorem isBlank_toLower (c : Char) : isBlank c.toLower = isBlank c := by
  have hcode := toNat_toLower c
  by_cases hcapital : 65 ≤ c.toNat ∧ c.toNat ≤ 90
  · rw [if_pos hcapital] at hcode
    rw [isBlank_eq_false_of_visible (by omega) (by omega),
      isBlank_eq_false_of_visible (by omega) (by omega)]
  · rw [if_neg hcapital] at hcode
    rw [Char.toNat_inj.mp hcode]

/-- The lower case of a character is a given small letter. -/
theorem toLower_eq_iff {c small capital : Char} (hcapital : 65 ≤ capital.toNat ∧ capital.toNat ≤ 90)
    (hsmall : small.toNat = capital.toNat + 32) : c.toLower = small ↔ c = small ∨ c = capital := by
  rw [← Char.toNat_inj, ← Char.toNat_inj, ← Char.toNat_inj, toNat_toLower]
  split <;> omega

theorem map_toLower_trimChars (cs : List Char) :
    (trimChars cs).map Char.toLower = trimChars (cs.map Char.toLower) := by
  have hskip (cs : List Char) :
      (skipBlanks cs).map Char.toLower = skipBlanks (cs.map Char.toLower) := by
    have hsame : isBlank ∘ Char.toLower = isBlank := funext isBlank_toLower
    rw [skipBlanks, skipBlanks, List.dropWhile_map, hsame]
  rw [trimChars, skipBlanksAtEnd, trimChars, skipBlanksAtEnd, List.map_reverse, hskip,
    List.map_reverse, hskip]

theorem surrounds_trimChars (s : String) : Surrounds s (trimChars s.toList) := by
  obtain ⟨before, hbefore, hfront⟩ := Directive.exists_blanks s.toList
  obtain ⟨after, hafter, hback⟩ := Directive.exists_blanks (skipBlanks s.toList).reverse
  refine ⟨before, after.reverse, hbefore, fun c hmem => hafter c (List.mem_reverse.mp hmem), ?_⟩
  rw [trimChars, skipBlanksAtEnd, ← List.reverse_append, ← hback, List.reverse_reverse]
  exact hfront

theorem Surrounds.trimChars_eq {s : String} {core : List Char} (h : Surrounds s core) :
    trimChars s.toList = trimChars core := by
  obtain ⟨before, after, hbefore, hafter, hs⟩ := h
  rw [hs, trimChars, Directive.skipBlanks_append hbefore]
  exact Directive.trimChars_append hafter core

end Text

/-- Names are compared by resemblance. -/
theorem Shape.normalName_eq_iff {name other : String} :
    normalName name = normalName other ↔ Text.Resembles name other := by
  rw [normalName, normalName, String.ofList_inj]
  constructor
  · exact fun h => ⟨_, _, Text.surrounds_trimChars name, Text.surrounds_trimChars other, h⟩
  · rintro ⟨core, rest, hname, hother, hsame⟩
    rw [hname.trimChars_eq, hother.trimChars_eq, Text.map_toLower_trimChars,
      Text.map_toLower_trimChars, hsame]

instance (name other : String) : Decidable (Text.Resembles name other) :=
  decidable_of_iff _ Shape.normalName_eq_iff

theorem Branch.ofLabel?_eq_some_iff {label : String} {tag : Branch} :
    ofLabel? label = some tag ↔ Text.Resembles label tag.name := by
  have hname : Text.trimChars tag.name.toList = tag.name.toList := by cases tag <;> decide
  have hyes (c : Char) : c.toLower = 'y' ↔ c = 'y' ∨ c = 'Y' :=
    Text.toLower_eq_iff (by decide) (by decide)
  have hno (c : Char) : c.toLower = 'n' ↔ c = 'n' ∨ c = 'N' :=
    Text.toLower_eq_iff (by decide) (by decide)
  rw [← Shape.normalName_eq_iff, ofLabel?, Shape.normalName, Shape.normalName, String.ofList_inj,
    hname]
  cases Text.trimChars label.toList with
  | nil => cases tag <;> simp [name]
  | cons c cs =>
      cases cs with
      | nil =>
          cases tag with
          | yes =>
              change _ ↔ [c.toLower] = ['y']
              rw [List.singleton_inj, hyes]
              grind
          | no =>
              change _ ↔ [c.toLower] = ['n']
              rw [List.singleton_inj, hno]
              grind
      | cons d ds => cases tag <;> simp [name]

/-! ### The upper case -/

namespace Text

def Separates (gap : List Char) : Prop := gap ≠ [] ∧ ∀ c ∈ gap, ¬ c.isUpper

/-- What each character becomes in upper case: as `capitals` says, unless no basic Latin capital is
in it either way. -/
def IsUpperCase (upper : Char → List Char) : Prop :=
  ∀ c, upper c = capitals c ∨ Separates (upper c) ∧ Separates (capitals c)

/-- A word occurs in characters if they hold it in a row. -/
theorem occursIn_iff {word cs : List Char} : occursIn word cs ↔ word <:+: cs := by
  induction cs with
  | nil => rw [occursIn, List.isEmpty_iff, List.infix_nil]
  | cons c cs ih =>
      rw [occursIn, Bool.or_eq_true, List.isPrefixOf_iff_prefix, ih, List.infix_cons_iff]

section Words

variable {word gap : List Char} (hword : ∀ c ∈ word, c.isUpper) (hgap : Separates gap)

include hword hgap

/-- No part of a capitalised word lies in a gap. -/
theorem Separates.eq_nil {part : List Char} (hpart : part ⊆ word) (hmeets : part ⊆ gap) :
    part = [] := by
  apply List.eq_nil_iff_forall_not_mem.mpr
  intro c hmem
  exact hgap.2 c (hmeets hmem) (hword c (hpart hmem))

theorem infix_gap_append_iff (hne : word ≠ []) (cs : List Char) :
    word <:+: gap ++ cs ↔ word <:+: cs := by
  rw [List.infix_append_iff]
  constructor
  · rintro (hinside | hbehind | ⟨front, back, rfl, hfront, hback⟩)
    · exact absurd (hgap.eq_nil hword (List.Subset.refl _) hinside.subset) hne
    · exact hbehind
    · rw [hgap.eq_nil hword (List.subset_append_left _ _) hfront.subset, List.nil_append]
      exact hback.isInfix
  · intro hbehind
    exact .inr (.inl hbehind)

/-- A capitalised word stands on one side of a gap. -/
theorem infix_append_gap_iff (hne : word ≠ []) (cs ds : List Char) :
    word <:+: cs ++ (gap ++ ds) ↔ word <:+: cs ∨ word <:+: ds := by
  rw [List.infix_append_iff, infix_gap_append_iff hword hgap hne]
  constructor
  · rintro (hbefore | hbehind | ⟨front, back, rfl, hfront, hback⟩)
    · exact .inl hbefore
    · exact .inr hbehind
    · cases back with
      | nil =>
          rw [List.append_nil]
          exact .inl hfront.isInfix
      | cons c back =>
          -- The word would go on with the first character of the gap.
          obtain ⟨d, rest, rfl⟩ := List.exists_cons_of_ne_nil hgap.1
          obtain ⟨rfl, -⟩ := List.cons_prefix_cons.mp hback
          exact absurd (hword c (by simp)) (hgap.2 c (by simp))
  · rintro (hbefore | hbehind)
    · exact .inl hbefore
    · exact .inr (.inl hbehind)

end Words

/-- A capitalised word stands in the upper case of a text whatever becomes of the characters that
hold no basic Latin capital. -/
theorem infix_upper_iff {word : List Char} (hne : word ≠ []) (hword : ∀ c ∈ word, c.isUpper)
    {upper : Char → List Char} (hupper : IsUpperCase upper) (cs : List Char) :
    word <:+: cs.flatMap upper ↔ word <:+: cs.flatMap capitals := by
  -- Characters that become the same in both are put in front of the rest, where they stay.
  have hbehind (front : List Char) :
      word <:+: front ++ cs.flatMap upper ↔ word <:+: front ++ cs.flatMap capitals := by
    induction cs generalizing front with
    | nil => rfl
    | cons c cs ih =>
        rw [List.flatMap_cons, List.flatMap_cons]
        rcases hupper c with hsame | ⟨hgap, hother⟩
        · rw [hsame, ← List.append_assoc, ← List.append_assoc]
          exact ih _
        · rw [infix_append_gap_iff hword hgap hne, infix_append_gap_iff hword hother hne]
          exact or_congr_right (ih [])
  exact hbehind []

end Text

/-! ### Names of shapes -/

namespace Shape

def names : Shape → List String
  | start => ["start"]
  | finish => ["end"]
  | terminal => ["terminal"]
  | process => ["process"]
  | decision => ["decision"]
  | io => ["io", "inputoutput", "input_output"]
  | connector => ["connector"]

theorem ofName?_eq_some_iff {name : String} {shape : Shape} :
    ofName? name = some shape ↔ normalName name ∈ shape.names := by
  unfold ofName?
  split <;> cases shape <;> simp_all [names]

/-- What a node of a shape does: a terminal starts a run exactly if the upper case of its label
holds the word. -/
inductive Does (upper : Char → List Char) (label : String) : Shape → NodeKind → Prop
  | start : Does upper label start .start
  | finish : Does upper label finish .finish
  | starting (hlabel : "START".toList <:+: label.toList.flatMap upper) :
      Does upper label terminal .start
  | ending (hlabel : ¬ "START".toList <:+: label.toList.flatMap upper) :
      Does upper label terminal .finish
  | process : Does upper label process .process
  | decision : Does upper label decision .decision
  | io : Does upper label io .io
  | connector : Does upper label connector .connector

/-- A node does what its shape and its label say. -/
theorem kind_eq_iff {upper : Char → List Char} (hupper : Text.IsUpperCase upper) {shape : Shape}
    {label : String} {kind : NodeKind} : shape.kind label = kind ↔ shape.Does upper label kind := by
  have hmentions : Text.mentionsInCapitals "START" label
      ↔ "START".toList <:+: label.toList.flatMap upper := by
    have hword : ∀ c ∈ "START".toList, c.isUpper := by simp
    rw [Text.infix_upper_iff (by simp) hword hupper]
    exact Text.occursIn_iff
  constructor
  · rintro rfl
    cases shape with
    | terminal =>
        rw [Shape.kind]
        split
        · exact .starting (hmentions.mp ‹_›)
        · exact .ending (mt hmentions.mpr ‹_›)
    | start => exact .start
    | finish => exact .finish
    | process => exact .process
    | decision => exact .decision
    | io => exact .io
    | connector => exact .connector
  · intro h
    cases h with
    | starting hlabel => exact if_pos (hmentions.mpr hlabel)
    | ending hlabel => exact if_neg (mt hmentions.mp hlabel)
    | _ => rfl

end Shape

/-! ### Aliases -/

structure Naming where
  name : String
  shapeName : String
  deriving DecidableEq, Repr

def Aliases.ofNamings (namings : List Naming) : Aliases :=
  namings.foldl (fun aliases naming => aliases.add naming.name naming.shapeName) []

/-- A call gives this name to a shape: the name it registers is the same but for case and blanks,
and the name of its shape means that shape by itself. -/
def Naming.Gives (name : String) (naming : Naming) (shape : Shape) : Prop :=
  Shape.normalName naming.name = Shape.normalName name
    ∧ Shape.normalName naming.shapeName ∈ shape.names

def Naming.Counts (name : String) (naming : Naming) : Prop := ∃ shape, naming.Gives name shape

/-- The shape that a name means after calls: that of the last call that counts for the name, or its
own if no call does. -/
inductive Shape.Means (namings : List Naming) (name : String) (shape : Shape) : Prop
  | alias {naming} (hlast : LastOf (Naming.Counts name) namings naming)
      (hgives : naming.Gives name shape)
  | itself (hnone : ∀ naming ∈ namings, ¬ naming.Counts name)
      (hname : normalName name ∈ shape.names)

def Shape.Unknown (namings : List Naming) (name : String) : Prop :=
  (∀ naming ∈ namings, ¬ naming.Counts name) ∧ ∀ shape : Shape, normalName name ∉ shape.names

namespace Naming

def shapeFor? (name : String) (naming : Naming) : Option Shape :=
  if Shape.normalName naming.name = Shape.normalName name then Shape.ofName? naming.shapeName
  else none

variable {name : String} {naming : Naming}

theorem shapeFor?_eq_some_iff {shape : Shape} :
    naming.shapeFor? name = some shape ↔ naming.Gives name shape := by
  rw [shapeFor?, Gives, ← Shape.ofName?_eq_some_iff]
  split <;> simp_all

theorem shapeFor?_eq_none_iff : naming.shapeFor? name = none ↔ ¬ naming.Counts name := by
  simp only [Counts, ← shapeFor?_eq_some_iff, ← Option.isSome_iff_exists,
    Option.not_isSome_iff_eq_none]

end Naming

namespace Aliases

variable {namings : List Naming} {name : String}

theorem lookup_add (aliases : Aliases) (naming : Naming) (name : String) :
    (aliases.add naming.name naming.shapeName).lookup (Shape.normalName name)
      = (naming.shapeFor? name <|> aliases.lookup (Shape.normalName name)) := by
  rw [add, Naming.shapeFor?]
  cases Shape.ofName? naming.shapeName with
  | none => rw [ite_self]; rfl
  | some shape =>
      by_cases hname : Shape.normalName naming.name = Shape.normalName name
      · rw [if_pos hname, ← hname, List.lookup_cons_self]
        rfl
      · rw [if_neg hname, List.lookup_cons, beq_false_of_ne (Ne.symm hname)]
        rfl

theorem ofNamings_concat (namings : List Naming) (last : Naming) :
    ofNamings (namings ++ [last]) = (ofNamings namings).add last.name last.shapeName :=
  List.foldl_concat _ _ _ _

theorem lookup_ofNamings_eq_some_iff {shape : Shape} :
    (ofNamings namings).lookup (Shape.normalName name) = some shape
      ↔ ∃ naming, LastOf (Naming.Counts name) namings naming ∧ naming.Gives name shape := by
  induction namings using List.reverseRecOn with
  | nil => exact iff_of_false (by simp [ofNamings]) (by simp [not_lastOf_nil])
  | append_singleton namings last ih =>
      rw [ofNamings_concat, lookup_add]
      simp only [lastOf_concat_iff]
      cases hlast : last.shapeFor? name with
      | none =>
          have hnot := Naming.shapeFor?_eq_none_iff.mp hlast
          simpa [hnot] using ih
      | some given =>
          have hgives := Naming.shapeFor?_eq_some_iff.mp hlast
          have hcounts : last.Counts name := ⟨given, hgives⟩
          simp [hcounts, ← Naming.shapeFor?_eq_some_iff, hlast]

theorem lookup_ofNamings_eq_none_iff :
    (ofNamings namings).lookup (Shape.normalName name) = none
      ↔ ∀ naming ∈ namings, ¬ naming.Counts name := by
  induction namings using List.reverseRecOn with
  | nil => simp [ofNamings]
  | append_singleton namings last ih =>
      rw [ofNamings_concat, lookup_add]
      simp only [← Naming.shapeFor?_eq_none_iff] at ih ⊢
      simp only [List.forall_mem_append, List.forall_mem_singleton, ← ih]
      cases last.shapeFor? name <;> simp

/-- The shape that is found for a name is the one that it means. -/
theorem shape?_eq_some_iff {shape : Shape} :
    (ofNamings namings).shape? name = some shape ↔ Shape.Means namings name shape := by
  rw [shape?, Option.orElse_eq_orElse, Option.orElse_eq_or, Option.or_eq_some_iff,
    lookup_ofNamings_eq_some_iff, lookup_ofNamings_eq_none_iff, Shape.ofName?_eq_some_iff]
  constructor
  · rintro (⟨naming, hlast, hgives⟩ | ⟨hnone, hname⟩)
    · exact .alias hlast hgives
    · exact .itself hnone hname
  · rintro (⟨hlast, hgives⟩ | ⟨hnone, hname⟩)
    · exact .inl ⟨_, hlast, hgives⟩
    · exact .inr ⟨hnone, hname⟩

theorem shape?_eq_none_iff :
    (ofNamings namings).shape? name = none ↔ Shape.Unknown namings name := by
  rw [shape?, Option.orElse_eq_orElse, Option.orElse_eq_or, Option.or_eq_none_iff,
    lookup_ofNamings_eq_none_iff, Shape.Unknown]
  refine and_congr_right fun _ => ?_
  simp only [← Shape.ofName?_eq_some_iff]
  exact Option.eq_none_iff_forall_ne_some

end Aliases

/-! ### Building -/

namespace Definition

structure NodeBecomes (upper : Char → List Char) (namings : List Naming) (drawn : DrawnNode)
    (node : Node) : Prop where
  id : node.id = drawn.id
  label : node.label = drawn.label
  body : node.body = drawn.body
  kind : ∃ shape, Shape.Means namings drawn.shape shape ∧ shape.Does upper drawn.label node.kind

/-- The edge that a drawn one becomes among nodes: it keeps the tag that its label says exactly if
it leaves a node that is a decision. -/
structure EdgeBecomes (nodes : List Node) (drawn : DrawnEdge) (edge : Edge) : Prop where
  source : edge.source = drawn.source
  target : edge.target = drawn.target
  tag_iff : ∀ tag, edge.tag = some tag
    ↔ (∃ node ∈ nodes, node.id = drawn.source ∧ node.kind = .decision)
      ∧ ∃ label, drawn.label = some label ∧ Branch.ofLabel? label = some tag

inductive Comes (upper : Char → List Char) (namings : List Naming) (definition : Definition) :
    Except GraphError Graph → Prop
  /-- The first node whose shape has no meaning is complained about, whatever else is wrong. -/
  | unknownShape {front drawn back} (hsplit : definition.nodes = front ++ drawn :: back)
      (hfront : ∀ earlier ∈ front, ¬ Shape.Unknown namings earlier.shape)
      (hdrawn : Shape.Unknown namings drawn.shape) :
      Comes upper namings definition (.error (.unknownShape drawn.id drawn.shape))
  | resolved {nodes edges}
      (hnodes : List.Forall₂ (NodeBecomes upper namings) definition.nodes nodes)
      (hedges : List.Forall₂ (EdgeBecomes nodes) definition.edges edges) :
      Comes upper namings definition (Graph.ofLists nodes edges)

variable {upper : Char → List Char} {namings : List Naming}

/-- A drawn node becomes the node that its shape and its label ask for. -/
theorem resolve_eq_ok_iff (hupper : Text.IsUpperCase upper) {drawn : DrawnNode} {node : Node} :
    drawn.resolve (.ofNamings namings) = .ok node ↔ NodeBecomes upper namings drawn node := by
  rw [DrawnNode.resolve]
  constructor
  · intro h
    cases hshape : (Aliases.ofNamings namings).shape? drawn.shape with
    | none =>
        rw [hshape] at h
        cases h
    | some shape =>
        rw [hshape] at h
        cases h
        exact ⟨rfl, rfl, rfl, shape, Aliases.shape?_eq_some_iff.mp hshape,
          (Shape.kind_eq_iff hupper).mp rfl⟩
  · obtain ⟨id, kind, label, body⟩ := node
    rintro ⟨rfl, rfl, rfl, shape, hmeans, hdoes⟩
    obtain rfl := (Shape.kind_eq_iff hupper).mpr hdoes
    rw [Aliases.shape?_eq_some_iff.mpr hmeans]

theorem resolve_eq_error_iff {drawn : DrawnNode} {error : GraphError} :
    drawn.resolve (.ofNamings namings) = .error error
      ↔ Shape.Unknown namings drawn.shape ∧ error = .unknownShape drawn.id drawn.shape := by
  rw [DrawnNode.resolve, ← Aliases.shape?_eq_none_iff]
  cases (Aliases.ofNamings namings).shape? drawn.shape <;> simp [eq_comm]

/-- A drawn edge becomes the edge with the tag that its label says, if any. -/
theorem resolve_edge_eq_iff {nodes : List Node} {drawn : DrawnEdge} {edge : Edge} :
    drawn.resolve ((nodes.filter (·.kind = .decision)).map Node.id) = edge
      ↔ EdgeBecomes nodes drawn edge := by
  obtain ⟨source, target, tag⟩ := edge
  have hleaves : drawn.source ∈ (nodes.filter (·.kind = .decision)).map Node.id
      ↔ ∃ node ∈ nodes, node.id = drawn.source ∧ node.kind = .decision := by
    simp only [List.mem_map, List.mem_filter, decide_eq_true_eq]
    exact ⟨fun ⟨node, ⟨hnode, hkind⟩, hid⟩ => ⟨node, hnode, hid, hkind⟩,
      fun ⟨node, hnode, hid, hkind⟩ => ⟨node, ⟨hnode, hkind⟩, hid⟩⟩
  have hread (branch : Branch) :
      (if drawn.source ∈ (nodes.filter (·.kind = .decision)).map Node.id
        then drawn.label.bind Branch.ofLabel? else none) = some branch
      ↔ (∃ node ∈ nodes, node.id = drawn.source ∧ node.kind = .decision)
        ∧ ∃ label, drawn.label = some label ∧ Branch.ofLabel? label = some branch := by
    rw [← hleaves, ← Option.bind_eq_some_iff, Option.ite_none_right_eq_some]
  rw [DrawnEdge.resolve, Edge.mk.injEq, Option.ext_iff]
  constructor
  · rintro ⟨rfl, rfl, htag⟩
    exact ⟨rfl, rfl, fun branch => (htag branch).symm.trans (hread branch)⟩
  · rintro ⟨rfl, rfl, htag⟩
    exact ⟨rfl, rfl, fun branch => (hread branch).trans (htag branch).symm⟩

variable {definition : Definition}

theorem build_eq (definition : Definition) (aliases : Aliases) :
    definition.build aliases = definition.nodes.mapM (DrawnNode.resolve aliases) >>= fun nodes =>
      Graph.ofLists nodes (definition.edges.map
        (DrawnEdge.resolve ((nodes.filter (·.kind = .decision)).map Node.id))) := rfl

theorem not_unknown_iff {drawn : DrawnNode} : ¬ Shape.Unknown namings drawn.shape
    ↔ ∃ node, drawn.resolve (.ofNamings namings) = .ok node := by
  rw [← Aliases.shape?_eq_none_iff, DrawnNode.resolve]
  cases (Aliases.ofNamings namings).shape? drawn.shape <;> simp

/-- Building a program comes to what its drawing asks for. -/
theorem comes_build (hupper : Text.IsUpperCase upper) :
    definition.Comes upper namings (definition.build (.ofNamings namings)) := by
  cases hnodes : definition.nodes.mapM (DrawnNode.resolve (.ofNamings namings)) with
  | error error =>
      rw [build_eq, hnodes]
      obtain ⟨front, drawn, back, nodes, hsplit, hfront, hdrawn⟩ := mapM_eq_error_iff.mp hnodes
      obtain ⟨hunknown, rfl⟩ := resolve_eq_error_iff.mp hdrawn
      have hknown := exists_mapM_eq_ok_iff.mp ⟨nodes, hfront⟩
      exact .unknownShape hsplit (fun earlier hmem => not_unknown_iff.mpr (hknown earlier hmem))
        hunknown
  | ok nodes =>
      rw [build_eq, hnodes]
      have hedge (drawn : DrawnEdge) : EdgeBecomes nodes drawn (drawn.resolve _) :=
        resolve_edge_eq_iff.mp rfl
      exact .resolved ((mapM_eq_ok_iff.mp hnodes).imp fun _ _ => (resolve_eq_ok_iff hupper).mp)
        (List.forall₂_map_right_iff.mpr (List.forall₂_same.mpr fun drawn _ => hedge drawn))

/-- Building a program comes to nothing but what its drawing asks for. -/
theorem Comes.build_eq (hupper : Text.IsUpperCase upper) {result : Except GraphError Graph}
    (h : definition.Comes upper namings result) :
    definition.build (.ofNamings namings) = result := by
  rw [Definition.build_eq]
  cases h with
  | unknownShape hsplit hfront hdrawn =>
      obtain ⟨nodes, hnodes⟩ := exists_mapM_eq_ok_iff.mpr fun earlier hmem =>
        not_unknown_iff.mp (hfront earlier hmem)
      have herror := resolve_eq_error_iff.mpr ⟨hdrawn, rfl⟩
      rw [mapM_eq_error_iff.mpr ⟨_, _, _, nodes, hsplit, hnodes, herror⟩]
      rfl
  | resolved hnodes hedges =>
      have hresolved := hedges.imp fun _ _ => resolve_edge_eq_iff.mpr
      rw [← List.forall₂_map_left_iff, List.forall₂_eq_eq_eq] at hresolved
      rw [mapM_eq_ok_iff.mpr (hnodes.imp fun _ _ => (resolve_eq_ok_iff hupper).mpr), ← hresolved]
      rfl

end Definition

/-! ### Programs that are drawn alike -/

structure Naming.Resembles (naming other : Naming) : Prop where
  name : Text.Resembles naming.name other.name
  shapeName : Text.Resembles naming.shapeName other.shapeName

structure DrawnNode.Resembles (drawn other : DrawnNode) : Prop where
  id : drawn.id = other.id
  shape : Text.Resembles drawn.shape other.shape
  label : drawn.label = other.label
  body : drawn.body = other.body

structure DrawnEdge.Resembles (drawn other : DrawnEdge) : Prop where
  source : drawn.source = other.source
  target : drawn.target = other.target
  label : Option.Rel Text.Resembles drawn.label other.label

structure Definition.Resembles (definition other : Definition) : Prop where
  nodes : List.Forall₂ DrawnNode.Resembles definition.nodes other.nodes
  edges : List.Forall₂ DrawnEdge.Resembles definition.edges other.edges

def GraphError.withoutShape : GraphError → GraphError
  | unknownShape id _ => unknownShape id ""
  | error => error

theorem Shape.ofName?_congr {name other : String} (h : Text.Resembles name other) :
    ofName? name = ofName? other := by
  rw [ofName?, ofName?, normalName_eq_iff.mpr h]

theorem Branch.ofLabel?_congr {label other : String} (h : Text.Resembles label other) :
    ofLabel? label = ofLabel? other := by
  refine Option.ext fun tag => ?_
  rw [ofLabel?_eq_some_iff, ofLabel?_eq_some_iff, ← Shape.normalName_eq_iff,
    ← Shape.normalName_eq_iff, Shape.normalName_eq_iff.mpr h]

namespace Aliases

theorem add_congr {naming other : Naming} (h : naming.Resembles other) (aliases : Aliases) :
    aliases.add naming.name naming.shapeName = aliases.add other.name other.shapeName := by
  rw [add, add, Shape.ofName?_congr h.shapeName, Shape.normalName_eq_iff.mpr h.name]

theorem shape?_congr {name other : String} (h : Text.Resembles name other) (aliases : Aliases) :
    aliases.shape? name = aliases.shape? other := by
  rw [shape?, shape?, Shape.ofName?_congr h, Shape.normalName_eq_iff.mpr h]

/-- Calls that resemble each other register the same. -/
theorem ofNamings_congr {namings others : List Naming}
    (h : List.Forall₂ Naming.Resembles namings others) : ofNamings namings = ofNamings others := by
  rw [ofNamings, ofNamings]
  generalize ([] : Aliases) = aliases
  induction h generalizing aliases with
  | nil => rfl
  | cons hhead _ ih =>
      rw [List.foldl_cons, List.foldl_cons, add_congr hhead]
      exact ih _

end Aliases

section Results

variable {α β γ ε ε' : Type} {w : ε → ε'}

theorem mapError_bind (first : Except ε α) (next : α → Except ε β) :
    (first >>= next).mapError w = first.mapError w >>= fun a => (next a).mapError w := by
  cases first <;> rfl

theorem mapError_mapM {f : α → Except ε γ} {g : β → Except ε γ} {xs : List α} {ys : List β}
    (h : List.Forall₂ (fun x y => (f x).mapError w = (g y).mapError w) xs ys) :
    (xs.mapM f).mapError w = (ys.mapM g).mapError w := by
  induction h with
  | nil => rfl
  | cons hhead _ ih =>
      rw [List.mapM_cons, List.mapM_cons, mapError_bind, mapError_bind, hhead]
      simp only [mapError_bind, ih]

end Results

theorem DrawnNode.Resembles.resolve_congr {drawn other : DrawnNode} (h : drawn.Resembles other)
    (aliases : Aliases) : (drawn.resolve aliases).mapError GraphError.withoutShape
      = (other.resolve aliases).mapError GraphError.withoutShape := by
  rw [resolve, resolve, Aliases.shape?_congr h.shape, h.id, h.label, h.body]
  cases aliases.shape? other.shape <;> rfl

theorem DrawnEdge.Resembles.resolve_congr {drawn other : DrawnEdge} (h : drawn.Resembles other)
    (decisions : List NodeId) : drawn.resolve decisions = other.resolve decisions := by
  have hread : drawn.label.bind Branch.ofLabel? = other.label.bind Branch.ofLabel? := by
    have hlabel := h.label
    generalize drawn.label = label at *
    generalize other.label = spelling at *
    cases hlabel with
    | some hresembles => exact Branch.ofLabel?_congr hresembles
    | none => rfl
  rw [resolve, resolve, h.source, h.target, hread]

/-- Programs that resemble each other are built alike. -/
theorem Definition.Resembles.build_congr {definition other : Definition}
    (h : definition.Resembles other) (aliases : Aliases) :
    (definition.build aliases).mapError GraphError.withoutShape
      = (other.build aliases).mapError GraphError.withoutShape := by
  have hedges (decisions : List NodeId) : definition.edges.map (DrawnEdge.resolve decisions)
      = other.edges.map (DrawnEdge.resolve decisions) := by
    rw [← List.forall₂_eq_eq_eq, List.forall₂_map_left_iff, List.forall₂_map_right_iff]
    exact h.edges.imp fun _ _ hedge => hedge.resolve_congr decisions
  rw [build_eq, build_eq, mapError_bind, mapError_bind,
    mapError_mapM (h.nodes.imp fun _ _ hnode => hnode.resolve_congr aliases)]
  simp only [hedges]

/-- **Shapes and tags.** Whatever aliases are registered, building a drawn program complains about
the first node whose shape has no meaning, in its own spelling; if there is none, it comes to what
the graph of its nodes and edges comes to. The shape of a node is that of the last alias for its
name that counts, or else that of its name, and an edge keeps the tag of its label exactly if it
leaves a decision. Names and labels that differ only in the case of basic Latin letters and in the
blanks around are compared alike, and to respell them changes nothing but the spelling in a
complaint. -/
theorem shapes_and_tags_are_resolved {upper : Char → List Char} (hupper : Text.IsUpperCase upper)
    (namings : List Naming) (definition : Definition) :
    (∀ result, definition.build (.ofNamings namings) = result
      ↔ definition.Comes upper namings result)
    ∧ (∀ name other, Shape.normalName name = Shape.normalName other ↔ Text.Resembles name other)
    ∧ (∀ label tag, Branch.ofLabel? label = some tag ↔ Text.Resembles label tag.name)
    ∧ ∀ others other, List.Forall₂ Naming.Resembles namings others → definition.Resembles other →
      (definition.build (.ofNamings namings)).mapError GraphError.withoutShape
        = (other.build (.ofNamings others)).mapError GraphError.withoutShape := by
  refine ⟨fun result => ⟨?_, fun h => h.build_eq hupper⟩, fun _ _ => Shape.normalName_eq_iff,
    fun _ _ => Branch.ofLabel?_eq_some_iff, fun others other hnamings hdefinition => ?_⟩
  · rintro rfl
    exact Definition.comes_build hupper
  · rw [Aliases.ofNamings_congr hnamings]
    exact hdefinition.build_congr _

/-- An alias takes the name of a built-in shape, a later one with an unknown shape does not count,
and a label holds the word in letters of which one becomes two in upper case. -/
theorem shapes_and_tags_are_resolved_overridden_name :
    let upper (c : Char) : List Char := if c = 'é' then ['É'] else Text.capitals c
    let namings : List Naming :=
      [⟨"Box", "process"⟩, ⟨" START", "decision"⟩, ⟨"box ", "TERMINAL"⟩, ⟨"box", "start node"⟩]
    let others : List Naming :=
      [⟨"box", "process"⟩, ⟨"start", "Decision"⟩, ⟨"box", "terminal"⟩, ⟨"box", "start node "⟩]
    let nodes : List DrawnNode :=
      [⟨0, "bOx", "é, re\ufb06art", ""⟩, ⟨1, "start", "?", "x > 1"⟩, ⟨2, "box", "stop", ""⟩]
    let definition : Definition := ⟨nodes, [⟨0, 1, some "Y"⟩, ⟨1, 2, some " y"⟩]⟩
    let other : Definition := ⟨nodes, [⟨0, 1, some "Y"⟩, ⟨1, 2, some "Y"⟩]⟩
    let unknown : Definition := ⟨nodes ++ [⟨2, " Start Node", "", ""⟩], []⟩
    definition.Comes upper namings (definition.build (.ofNamings namings))
      ∧ (definition.build (.ofNamings namings)).toOption.map Graph.edges
        = some [⟨0, 1, none⟩, ⟨1, 2, some .yes⟩]
      ∧ (definition.build (.ofNamings namings)).toOption.map (·.nodes.map Node.kind)
        = some [.start, .decision, .finish]
      ∧ (definition.build (.ofNamings namings)).mapError GraphError.withoutShape
        = (other.build (.ofNamings others)).mapError GraphError.withoutShape
      ∧ unknown.build (.ofNamings namings) = .error (.unknownShape 2 " Start Node") := by
  intro upper namings others nodes definition other unknown
  have hupper : Text.IsUpperCase upper := by
    intro c
    by_cases hc : c = 'é'
    · subst hc
      have hcapitals : Text.capitals 'é' = ['é'] := by decide +kernel
      rw [hcapitals]
      exact .inr ⟨⟨by simp [upper], by simp [upper]⟩, by simp, by simp⟩
    · exact .inl (if_neg hc)
  obtain ⟨hbuild, hnames, hlabels, hrespelled⟩ :=
    shapes_and_tags_are_resolved hupper namings definition
  have hnamings : List.Forall₂ Naming.Resembles namings others :=
    .cons ⟨by decide +kernel, by decide +kernel⟩ (.cons ⟨by decide +kernel, by decide +kernel⟩
      (.cons ⟨by decide +kernel, by decide +kernel⟩
        (.cons ⟨by decide +kernel, by decide +kernel⟩ .nil)))
  have hnodes : List.Forall₂ DrawnNode.Resembles nodes nodes :=
    List.forall₂_same.mpr fun drawn _ => ⟨rfl, (hnames _ _).mp rfl, rfl, rfl⟩
  have hedges : List.Forall₂ DrawnEdge.Resembles definition.edges other.edges :=
    .cons ⟨rfl, rfl, .some (by decide +kernel)⟩ (.cons ⟨rfl, rfl, .some (by decide +kernel)⟩ .nil)
  have hdefinition : definition.Resembles other := ⟨hnodes, hedges⟩
  exact ⟨(hbuild _).mp rfl, by decide +kernel, by decide +kernel,
    hrespelled others other hnamings hdefinition, rfl⟩

end Flowchart
