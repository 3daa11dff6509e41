import Mathlib
import Flowchart.Proofs.Arrangement
import Flowchart.Proofs.Scanning

/-!
# Graphs with an index

A graph can be laid down with two tables: one says where the node with a number stands, the other
where the edges out of a node stand. Each is filled in one pass over a list, and the pass over the
nodes also finds out whether a number is used twice. A table holds positions and no others than
there are, so that nothing is looked up outside of the lists.

What is found through the tables is what a search through the lists finds, and the lists of which a
graph with an index is made, or what is said against the others, are the same as for one without.
-/

namespace Flowchart

abbrev NodeIndex (nodes : List Node) := Std.HashMap NodeId (Fin nodes.length)

abbrev EdgeIndex (edges : List Edge) := Std.HashMap NodeId (Array (Fin edges.length))

def NodeIndex.enter {nodes : List Node} (index : NodeIndex nodes) (position : Fin nodes.length) :
    Except GraphError (NodeIndex nodes) :=
  match index.containsThenInsert nodes[position].id position with
  | (true, _) => .error (.repeatedNode nodes[position].id)
  | (false, index) => .ok index

def NodeIndex.ofNodes (nodes : List Node) : Except GraphError (NodeIndex nodes) :=
  (List.finRange nodes.length).foldlM NodeIndex.enter ∅

def EdgeIndex.enter {edges : List Edge} (index : EdgeIndex edges) (position : Fin edges.length) :
    EdgeIndex edges :=
  index.alter edges[position].source fun positions => some ((positions.getD #[]).push position)

def EdgeIndex.ofEdges (edges : List Edge) : EdgeIndex edges :=
  (List.finRange edges.length).foldl EdgeIndex.enter ∅

/-- Nodes and edges with the tables of where they stand. -/
structure IndexedGraph where
  nodes : List Node
  edges : List Edge
  index : NodeIndex nodes
  outgoingIndex : EdgeIndex edges
  entry : NodeId

namespace IndexedGraph

/-- The number of the only start node, which no edge may lead to. -/
def findEntry (nodes : List Node) (edges : List Edge) : Except GraphError NodeId :=
  match (nodes.filter (·.kind = .start)).map Node.id with
  | [] => .error .missingStart
  | [entry] =>
    match edges.find? (·.target = entry) with
    | some edge => .error (.startHasPredecessor entry edge.source)
    | none => .ok entry
  | starts => .error (.severalStarts starts)

def ofLists (nodes : List Node) (edges : List Edge) : Except GraphError IndexedGraph := do
  let index ← NodeIndex.ofNodes nodes
  let entry ← findEntry nodes edges
  return ⟨nodes, edges, index, .ofEdges edges, entry⟩

variable (graph : IndexedGraph) (id : NodeId)

def node? : Option Node := graph.index[id]?.map (graph.nodes[·])

def node : Except Failure Node := (graph.node? id).elim (.error (.brokenLink id)) .ok

def entryNode : Except Failure Node := (graph.node? graph.entry).elim (.error .missingEntry) .ok

def outgoing : List Edge := (graph.outgoingIndex.getD id #[]).toList.map (graph.edges[·])

def successor? : Option NodeId := (graph.outgoing id).head?.map Edge.target

end IndexedGraph

/-! ### What graphs are made of -/

/-- The numbers of the nodes are distinct, and one of them is the start, which no edge leads to. -/
structure WellFormed (nodes : List Node) (edges : List Edge) (entry : Node) : Prop where
  distinct : (nodes.map Node.id).Nodup
  sole_entry : nodes.filter (·.kind = .start) = [entry]
  entry_untargeted : ∀ edge ∈ edges, edge.target ≠ entry.id

/-- What is said against lists of which no graph is made. Of several complaints the first of these
is made. A number is complained of at the first node that has it from an earlier one, and an edge at
the first that leads to the start. -/
inductive GraphError.IsAgainst (nodes : List Node) (edges : List Edge) : GraphError → Prop
  | repeatedNode {front node back} (hnodes : nodes = front ++ node :: back)
      (hfront : (front.map Node.id).Nodup) (hrepeated : node.id ∈ front.map Node.id) :
      IsAgainst nodes edges (.repeatedNode node.id)
  | missingStart (hdistinct : (nodes.map Node.id).Nodup)
      (hmissing : ∀ node ∈ nodes, node.kind ≠ .start) : IsAgainst nodes edges .missingStart
  | severalStarts {starts} (hdistinct : (nodes.map Node.id).Nodup)
      (hstarts : nodes.filter (·.kind = .start) = starts) (hseveral : 1 < starts.length) :
      IsAgainst nodes edges (.severalStarts (starts.map Node.id))
  | startHasPredecessor {entry front edge back} (hdistinct : (nodes.map Node.id).Nodup)
      (hentry : nodes.filter (·.kind = .start) = [entry]) (hedges : edges = front ++ edge :: back)
      (hfront : ∀ earlier ∈ front, earlier.target ≠ entry.id) (htarget : edge.target = entry.id) :
      IsAgainst nodes edges (.startHasPredecessor entry.id edge.source)

/-- What is found in a graph is what the lists hold. -/
structure IndexedGraph.Reads (graph : IndexedGraph) (nodes : List Node) (edges : List Edge)
    (entry : Node) : Prop where
  entryNode_eq : graph.entryNode = .ok entry
  node_eq_ok_iff : ∀ id node, graph.node id = .ok node ↔ node ∈ nodes ∧ node.id = id
  node_eq_error_iff : ∀ id failure,
    graph.node id = .error failure ↔ failure = .brokenLink id ∧ ∀ node ∈ nodes, node.id ≠ id
  outgoing_eq : ∀ id, graph.outgoing id = edges.filter (·.source = id)
  successor?_eq : ∀ id,
    graph.successor? id = (edges.filter (·.source = id)).head?.map Edge.target

structure IndexedGraph.Agrees (graph : IndexedGraph) (plain : Graph) : Prop where
  nodes_eq : graph.nodes = plain.nodes
  edges_eq : graph.edges = plain.edges
  entry_eq : graph.entry = plain.entry.id
  node?_eq : ∀ id, graph.node? id = plain.node? id
  outgoing_eq : ∀ id, graph.outgoing id = plain.outgoing id
  successor?_eq : ∀ id, graph.successor? id = plain.successor? id

/-! ### The index of the nodes -/

namespace NodeIndex

variable {nodes : List Node} {index next : NodeIndex nodes} {position : Fin nodes.length}
  {seen rest : List (Fin nodes.length)} {error : GraphError}

/-- The table holds the positions that were seen, each under the number of its node, and these
numbers are distinct. -/
structure Holds (index : NodeIndex nodes) (seen : List (Fin nodes.length)) : Prop where
  distinct : (seen.map (nodes[·].id)).Nodup
  getElem?_eq_some_iff : ∀ id position,
    index[id]? = some position ↔ position ∈ seen ∧ nodes[position].id = id

theorem holds_empty : Holds (∅ : NodeIndex nodes) [] where
  distinct := List.nodup_nil
  getElem?_eq_some_iff := by simp

theorem enter_eq (index : NodeIndex nodes) (position : Fin nodes.length) :
    index.enter position =
      if nodes[position].id ∈ index then .error (.repeatedNode nodes[position].id)
      else .ok (index.insert nodes[position].id position) := by
  have hpair : index.containsThenInsert nodes[position].id position
      = (index.contains nodes[position].id, index.insert nodes[position].id position) :=
    Prod.ext Std.HashMap.containsThenInsert_fst Std.HashMap.containsThenInsert_snd
  rw [enter, hpair]
  by_cases hmem : nodes[position].id ∈ index
  · rw [if_pos hmem, Std.HashMap.contains_iff_mem.mpr hmem]
  · rw [if_neg hmem, Bool.eq_false_iff.mpr (mt Std.HashMap.contains_iff_mem.mp hmem)]

namespace Holds

theorem mem_iff (h : index.Holds seen) (id : NodeId) :
    id ∈ index ↔ id ∈ seen.map (nodes[·].id) := by
  rw [Std.HashMap.mem_iff_isSome_getElem?, Option.isSome_iff_exists, List.mem_map]
  exact exists_congr fun position => h.getElem?_eq_some_iff id position

/-- Entering a node keeps the table right. -/
theorem enter_ok (h : index.Holds seen) (hnext : index.enter position = .ok next) :
    next.Holds (seen ++ [position]) := by
  rw [enter_eq] at hnext
  split at hnext
  · cases hnext
  · rename_i hnew
    cases hnext
    rw [h.mem_iff] at hnew
    refine ⟨?_, fun id other => ?_⟩
    · rw [List.map_append, List.map_singleton, List.nodup_append_comm, List.singleton_append]
      exact List.nodup_cons.mpr ⟨hnew, h.distinct⟩
    · -- No position that was seen has the new number, so nothing is overwritten.
      rw [Std.HashMap.getElem?_insert]
      by_cases hid : nodes[position].id = id
      · rw [if_pos (beq_iff_eq.mpr hid)]
        refine ⟨?_, fun ⟨hmem, hother⟩ => ?_⟩
        · rintro ⟨⟩
          exact ⟨List.mem_append_right _ (List.mem_singleton_self _), hid⟩
        · rcases List.mem_append.mp hmem with hseen | hposition
          · exact absurd (List.mem_map.mpr ⟨other, hseen, hother.trans hid.symm⟩) hnew
          · rw [List.mem_singleton.mp hposition]
      · rw [if_neg (mt beq_iff_eq.mp hid), h.getElem?_eq_some_iff, List.mem_append,
          List.mem_singleton]
        refine ⟨fun ⟨hseen, hother⟩ => ⟨.inl hseen, hother⟩, ?_⟩
        rintro ⟨hseen | rfl, hother⟩
        · exact ⟨hseen, hother⟩
        · exact absurd hother hid

/-- A node is refused only if its number was seen before. -/
theorem enter_error (h : index.Holds seen) (herror : index.enter position = .error error) :
    nodes[position].id ∈ seen.map (nodes[·].id) ∧ error = .repeatedNode nodes[position].id := by
  rw [enter_eq] at herror
  split at herror
  · rename_i hmem
    cases herror
    exact ⟨(h.mem_iff _).mp hmem, rfl⟩
  · cases herror

/-- Entering all nodes in turn keeps the table right. -/
theorem foldlM_ok (h : index.Holds seen) (hnext : rest.foldlM enter index = .ok next) :
    next.Holds (seen ++ rest) := by
  induction rest generalizing index seen with
  | nil =>
      cases hnext
      rwa [List.append_nil]
  | cons position rest ih =>
      rw [List.foldlM_cons] at hnext
      cases hentered : index.enter position with
      | error error =>
          rw [hentered] at hnext
          cases hnext
      | ok entered =>
          rw [hentered] at hnext
          have hrest := ih (h.enter_ok hentered) hnext
          rwa [List.append_assoc, List.singleton_append] at hrest

theorem foldlM_error (h : index.Holds seen) (herror : rest.foldlM enter index = .error error) :
    ∃ before position after, rest = before ++ position :: after
      ∧ ((seen ++ before).map (nodes[·].id)).Nodup
      ∧ nodes[position].id ∈ (seen ++ before).map (nodes[·].id)
      ∧ error = .repeatedNode nodes[position].id := by
  induction rest generalizing index seen with
  | nil => cases herror
  | cons position rest ih =>
      rw [List.foldlM_cons] at herror
      cases hentered : index.enter position with
      | error error =>
          rw [hentered] at herror
          cases herror
          refine ⟨[], position, rest, rfl, ?_⟩
          rw [List.append_nil]
          exact ⟨h.distinct, h.enter_error hentered⟩
      | ok entered =>
          rw [hentered] at herror
          obtain ⟨before, other, after, rfl, hrepeated⟩ := ih (h.enter_ok hentered) herror
          rw [List.append_assoc, List.singleton_append] at hrepeated
          exact ⟨position :: before, other, after, rfl, hrepeated⟩

end Holds

theorem map_id_finRange (nodes : List Node) :
    (List.finRange nodes.length).map (nodes[·].id) = nodes.map Node.id := by
  calc
    _ = ((List.finRange nodes.length).map (nodes[·])).map Node.id := (List.map_map ..).symm
    _ = nodes.map Node.id := congrArg _ (List.map_getElem_finRange nodes)

theorem ofNodes_ok (h : ofNodes nodes = .ok index) : index.Holds (List.finRange nodes.length) :=
  holds_empty.foldlM_ok h

theorem ofNodes_error (edges : List Edge) (h : ofNodes nodes = .error error) :
    error.IsAgainst nodes edges := by
  obtain ⟨before, position, after, hpositions, hdistinct, hrepeated, rfl⟩ :=
    holds_empty.foldlM_error h
  have hnodes : nodes = before.map (nodes[·]) ++ nodes[position] :: after.map (nodes[·]) := by
    have hall : (List.finRange nodes.length).map (nodes[·]) = nodes :=
      List.map_getElem_finRange nodes
    rw [hpositions, List.map_append, List.map_cons] at hall
    exact hall.symm
  refine .repeatedNode hnodes ?_ ?_
  · rw [List.map_map]
    exact hdistinct
  · rw [List.map_map]
    exact hrepeated

end NodeIndex

/-! ### The index of the edges -/

namespace EdgeIndex

variable {edges : List Edge}

theorem toList_getD_enter (index : EdgeIndex edges) (position : Fin edges.length) (id : NodeId) :
    ((index.enter position).getD id #[]).toList
      = (index.getD id #[]).toList ++ [position].filter (edges[·].source = id) := by
  rw [Std.HashMap.getD_eq_getD_getElem?, Std.HashMap.getD_eq_getD_getElem?, enter,
    Std.HashMap.getElem?_alter]
  by_cases hsource : edges[position].source = id
  · subst hsource
    simp
  · rw [if_neg (mt beq_iff_eq.mp hsource)]
    simpa using hsource

/-- Behind the positions out of a node come those of further edges in their order. -/
theorem toList_getD_foldl (index : EdgeIndex edges) (positions : List (Fin edges.length))
    (id : NodeId) :
    ((positions.foldl enter index).getD id #[]).toList
      = (index.getD id #[]).toList ++ positions.filter (edges[·].source = id) := by
  induction positions generalizing index with
  | nil => simp
  | cons position rest ih =>
      rw [List.foldl_cons, ih, toList_getD_enter, List.append_assoc, ← List.filter_append,
        List.singleton_append]

/-- Under a number stand the edges out of the node with that number, in their order. -/
theorem toList_getD_ofEdges (edges : List Edge) (id : NodeId) :
    ((ofEdges edges).getD id #[]).toList
      = (List.finRange edges.length).filter (edges[·].source = id) := by
  rw [ofEdges, toList_getD_foldl, Std.HashMap.getD_empty]
  rfl

end EdgeIndex

/-! ### What is made, and what is said against it -/

namespace IndexedGraph

variable {nodes : List Node} {edges : List Edge} {graph : IndexedGraph} {error : GraphError}

/-- The entry is found exactly if there is one start node that no edge leads to, and else its defect
is named. -/
theorem findEntry_finds (edges : List Edge) (hdistinct : (nodes.map Node.id).Nodup) :
    match findEntry nodes edges with
    | .ok id => ∃ entry, WellFormed nodes edges entry ∧ entry.id = id
    | .error error => error.IsAgainst nodes edges := by
  rw [findEntry]
  cases hstarts : nodes.filter (·.kind = .start) with
  | nil => exact .missingStart hdistinct (by simpa using hstarts)
  | cons entry others =>
      cases others with
      | cons => exact .severalStarts hdistinct hstarts (by simp)
      | nil =>
          rw [List.map_singleton]
          cases hedges : edges.find? (·.target = entry.id) with
          | none =>
              simp only [hedges]
              exact ⟨entry, ⟨hdistinct, hstarts, by simpa using hedges⟩, rfl⟩
          | some edge =>
              simp only [hedges]
              obtain ⟨htarget, front, back, rfl, hfront⟩ := List.find?_eq_some_iff_append.mp hedges
              exact .startHasPredecessor hdistinct hstarts rfl (by simpa using hfront)
                (by simpa using htarget)

/-- An index is made of well-formed lists, and for others a complaint against them. -/
theorem ofLists_makes (nodes : List Node) (edges : List Edge) :
    match ofLists nodes edges with
    | .ok graph => ∃ entry index, WellFormed nodes edges entry
      ∧ NodeIndex.Holds index (List.finRange nodes.length)
      ∧ graph = ⟨nodes, edges, index, .ofEdges edges, entry.id⟩
    | .error error => error.IsAgainst nodes edges := by
  rw [ofLists]
  cases hindex : NodeIndex.ofNodes nodes with
  | error => exact NodeIndex.ofNodes_error edges hindex
  | ok index =>
      have hholds := NodeIndex.ofNodes_ok hindex
      have hdistinct := hholds.distinct
      rw [NodeIndex.map_id_finRange] at hdistinct
      have hentry := findEntry_finds edges hdistinct
      cases hfound : findEntry nodes edges with
      | error =>
          rw [hfound] at hentry
          exact hentry
      | ok id =>
          rw [hfound] at hentry
          obtain ⟨entry, hwell, rfl⟩ := hentry
          exact ⟨entry, index, hwell, hholds, rfl⟩

theorem of_ofLists_ok (h : ofLists nodes edges = .ok graph) :
    ∃ entry index, WellFormed nodes edges entry
      ∧ NodeIndex.Holds index (List.finRange nodes.length)
      ∧ graph = ⟨nodes, edges, index, .ofEdges edges, entry.id⟩ := by
  have hmakes := ofLists_makes nodes edges
  rwa [h] at hmakes

theorem isAgainst_of_ofLists (h : ofLists nodes edges = .error error) :
    error.IsAgainst nodes edges := by
  have hmakes := ofLists_makes nodes edges
  rwa [h] at hmakes

end IndexedGraph

/-! ### The same without an index -/

section Plain

variable {nodes : List Node} {edges : List Edge} {error : GraphError}

theorem exists_ofLists_iff_wellFormed :
    (∃ graph, Graph.ofLists nodes edges = .ok graph) ↔ ∃ entry, WellFormed nodes edges entry := by
  rw [Graph.exists_ofLists_iff]
  constructor
  · rintro ⟨hdistinct, entry, hentry, huntargeted⟩
    exact ⟨entry, hdistinct, hentry, huntargeted⟩
  · rintro ⟨entry, hdistinct, hentry, huntargeted⟩
    exact ⟨hdistinct, entry, hentry, huntargeted⟩

theorem firstRepeated?_of_mem {seen front back : List NodeId} {id : NodeId}
    (hfront : front.Nodup) (hnew : ∀ other ∈ front, other ∉ seen) (hmem : id ∈ seen ++ front) :
    firstRepeated? seen (front ++ id :: back) = some id := by
  induction front generalizing seen with
  | nil =>
      rw [List.append_nil] at hmem
      rw [List.nil_append, firstRepeated?, if_pos hmem]
  | cons first front ih =>
      obtain ⟨hfirst, hfront⟩ := List.nodup_cons.mp hfront
      rw [List.cons_append, firstRepeated?, if_neg (hnew first List.mem_cons_self)]
      refine ih hfront (fun other hother hseen => ?_) (by simpa [or_left_comm] using hmem)
      rcases List.mem_cons.mp hseen with rfl | hseen
      · exact hfirst hother
      · exact hnew other (List.mem_cons_of_mem _ hother) hseen

/-- Once the numbers are distinct, only the start is looked for. -/
theorem map_entry_ofLists (hdistinct : (nodes.map Node.id).Nodup) :
    (Graph.ofLists nodes edges).map (·.entry.id) = IndexedGraph.findEntry nodes edges := by
  have hids : firstRepeated? [] (nodes.map Node.id) = none :=
    firstRepeated?_eq_none_of_nodup hdistinct (by simp)
  unfold Graph.ofLists IndexedGraph.findEntry
  split
  · rename_i hsome
    rw [hids] at hsome
    cases hsome
  · split
    · rename_i hnil
      rw [hnil]
      rfl
    · rename_i entry hsole
      split
      · rename_i hedges
        rw [hsole, List.map_singleton]
        simp only [hedges]
        rfl
      · rename_i hedges
        change Except.ok entry.id = _
        rw [hsole, List.map_singleton]
        simp only [hedges]
    · rename_i hnil hsole
      match hstarts : nodes.filter (·.kind = .start) with
      | [] => exact absurd hstarts hnil
      | [entry] => exact absurd hstarts (hsole entry)
      | _ :: _ :: _ =>
          rw [hstarts]
          rfl

theorem ofLists_eq_error_of_findEntry (hdistinct : (nodes.map Node.id).Nodup)
    (h : IndexedGraph.findEntry nodes edges = .error error) :
    Graph.ofLists nodes edges = .error error :=
  map_eq_error_iff.mp ((map_entry_ofLists hdistinct).trans h)

theorem GraphError.IsAgainst.ofLists_eq (h : error.IsAgainst nodes edges) :
    Graph.ofLists nodes edges = .error error := by
  cases h with
  | @repeatedNode front node back hnodes hfront hrepeated =>
      have hids : firstRepeated? [] (nodes.map Node.id) = some node.id := by
        rw [hnodes, List.map_append, List.map_cons]
        exact firstRepeated?_of_mem hfront (by simp) hrepeated
      unfold Graph.ofLists
      split
      · rename_i hsome
        rw [hids] at hsome
        cases hsome
        rfl
      · rename_i hnone
        rw [hids] at hnone
        cases hnone
  | missingStart hdistinct hmissing =>
      have hstarts : nodes.filter (·.kind = .start) = [] := by simpa using hmissing
      refine ofLists_eq_error_of_findEntry hdistinct ?_
      rw [IndexedGraph.findEntry, hstarts]
      rfl
  | @severalStarts starts hdistinct hstarts hseveral =>
      refine ofLists_eq_error_of_findEntry hdistinct ?_
      rw [IndexedGraph.findEntry, hstarts]
      match starts with
      | _ :: _ :: _ => rfl
  | @startHasPredecessor entry front edge back hdistinct hentry hedges hfront htarget =>
      have hfound : edges.find? (·.target = entry.id) = some edge := by
        refine List.find?_eq_some_iff_append.mpr ⟨decide_eq_true htarget, front, back, hedges, ?_⟩
        simpa using hfront
      refine ofLists_eq_error_of_findEntry hdistinct ?_
      rw [IndexedGraph.findEntry, hentry, List.map_singleton]
      simp only [hfound]

end Plain

section Both

variable {nodes : List Node} {edges : List Edge} {error : GraphError}

/-- Both graphs are made of the same lists, and the same is said against the others. -/
theorem ofLists_agrees (nodes : List Node) (edges : List Edge) :
    match IndexedGraph.ofLists nodes edges with
    | .ok _ => ∃ plain, Graph.ofLists nodes edges = .ok plain
    | .error error => Graph.ofLists nodes edges = .error error := by
  have hmakes := IndexedGraph.ofLists_makes nodes edges
  cases hmade : IndexedGraph.ofLists nodes edges with
  | error error =>
      rw [hmade] at hmakes
      exact hmakes.ofLists_eq
  | ok graph =>
      rw [hmade] at hmakes
      obtain ⟨entry, -, hwell, -⟩ := hmakes
      exact exists_ofLists_iff_wellFormed.mpr ⟨entry, hwell⟩

/-- With and without an index the same complaints are made. -/
theorem indexed_ofLists_eq_error_iff_plain :
    IndexedGraph.ofLists nodes edges = .error error ↔ Graph.ofLists nodes edges = .error error := by
  have hagrees := ofLists_agrees nodes edges
  cases hmade : IndexedGraph.ofLists nodes edges with
  | error other =>
      rw [hmade] at hagrees
      rw [hagrees, Except.error.injEq, Except.error.injEq]
  | ok graph =>
      rw [hmade] at hagrees
      obtain ⟨plain, hplain⟩ := hagrees
      rw [hplain]
      exact ⟨nofun, nofun⟩

/-- A complaint is made exactly if it is against the lists. -/
theorem ofLists_eq_error_iff_isAgainst :
    Graph.ofLists nodes edges = .error error ↔ error.IsAgainst nodes edges :=
  ⟨fun h => IndexedGraph.isAgainst_of_ofLists (indexed_ofLists_eq_error_iff_plain.mpr h),
    fun h => h.ofLists_eq⟩

/-- Lists have an index exactly if they are well-formed. -/
theorem exists_indexed_ofLists_iff :
    (∃ graph, IndexedGraph.ofLists nodes edges = .ok graph)
      ↔ ∃ entry, WellFormed nodes edges entry := by
  rw [← exists_ofLists_iff_wellFormed]
  have hagrees := ofLists_agrees nodes edges
  cases hmade : IndexedGraph.ofLists nodes edges with
  | error error =>
      rw [hmade] at hagrees
      rw [hagrees]
      exact ⟨nofun, nofun⟩
  | ok graph =>
      rw [hmade] at hagrees
      exact ⟨fun _ => hagrees, fun _ => ⟨graph, rfl⟩⟩

end Both

/-! ### What is found -/

namespace IndexedGraph

variable {nodes : List Node} {edges : List Edge} {index : NodeIndex nodes} {entry : Node}

theorem node?_eq_some_iff (hholds : index.Holds (List.finRange nodes.length))
    (outgoingIndex : EdgeIndex edges) (start id : NodeId) (node : Node) :
    (IndexedGraph.mk nodes edges index outgoingIndex start).node? id = some node
      ↔ node ∈ nodes ∧ node.id = id := by
  rw [node?, Option.map_eq_some_iff]
  constructor
  · rintro ⟨position, hposition, rfl⟩
    obtain ⟨-, hid⟩ := (hholds.getElem?_eq_some_iff id position).mp hposition
    exact ⟨List.getElem_mem _, hid⟩
  · rintro ⟨hmem, hid⟩
    obtain ⟨position, hposition, rfl⟩ := List.getElem_of_mem hmem
    exact ⟨⟨position, hposition⟩,
      (hholds.getElem?_eq_some_iff id _).mpr ⟨List.mem_finRange _, hid⟩, rfl⟩

theorem outgoing_ofEdges (index : NodeIndex nodes) (start id : NodeId) :
    (IndexedGraph.mk nodes edges index (.ofEdges edges) start).outgoing id
      = edges.filter (·.source = id) := by
  have hedges : (List.finRange edges.length).map (edges[·]) = edges :=
    List.map_getElem_finRange edges
  rw [outgoing, EdgeIndex.toList_getD_ofEdges]
  conv_rhs => rw [← hedges, List.filter_map]
  rfl

/-- In the index of well-formed lists is found what they hold. -/
theorem reads_of_wellFormed (hwell : WellFormed nodes edges entry)
    (hholds : index.Holds (List.finRange nodes.length)) :
    (IndexedGraph.mk nodes edges index (.ofEdges edges) entry.id).Reads nodes edges entry := by
  have hentry : entry ∈ nodes :=
    List.mem_of_mem_filter (by rw [hwell.sole_entry]; exact List.mem_singleton_self entry)
  refine ⟨?_, fun id node => ?_, fun id failure => ?_, outgoing_ofEdges index _, fun id => ?_⟩
  · rw [entryNode, (node?_eq_some_iff hholds _ _ _ _).mpr ⟨hentry, rfl⟩]
    rfl
  · rw [← node?_eq_some_iff hholds (.ofEdges edges) entry.id, IndexedGraph.node]
    cases IndexedGraph.node? _ id <;> simp
  · have hfound := node?_eq_some_iff hholds (.ofEdges edges) entry.id id
    rw [IndexedGraph.node]
    cases hnode : IndexedGraph.node? _ id with
    | none =>
        have hnone : ∀ node ∈ nodes, node.id ≠ id := fun node hmem hid =>
          Option.some_ne_none _ (((hfound node).mpr ⟨hmem, hid⟩).symm.trans hnode)
        exact ⟨fun h => ⟨(Except.error.inj h).symm, hnone⟩, fun ⟨h, _⟩ => congrArg _ h.symm⟩
    | some node =>
        obtain ⟨hmem, hid⟩ := (hfound node).mp hnode
        exact ⟨nofun, fun ⟨_, hnone⟩ => absurd hid (hnone node hmem)⟩
  · rw [successor?, outgoing_ofEdges]

end IndexedGraph

/-- **Graphs and their index.** A graph is made of two lists just if the numbers of the nodes are
distinct, one of them is the start and no edge leads to it; against any other lists there is one
thing to be said. What is found in a graph is what the lists hold: the one node with a number, the
edges out of it in their order, and where the first of these leads. A graph without an index is made
of the same lists, the same is said against the others, and the same is found in it. -/
theorem index_finds_what_lists_hold (nodes : List Node) (edges : List Edge) :
    ((∃ graph, IndexedGraph.ofLists nodes edges = .ok graph)
        ↔ ∃ entry, WellFormed nodes edges entry)
      ∧ (∀ error, IndexedGraph.ofLists nodes edges = .error error
        ↔ error.IsAgainst nodes edges)
      ∧ (∀ error, Graph.ofLists nodes edges = .error error ↔ error.IsAgainst nodes edges)
      ∧ ∀ graph, IndexedGraph.ofLists nodes edges = .ok graph →
        ∃ plain, Graph.ofLists nodes edges = .ok plain ∧ WellFormed nodes edges plain.entry
          ∧ graph.Reads nodes edges plain.entry ∧ graph.Agrees plain := by
  refine ⟨exists_indexed_ofLists_iff,
    fun _ => indexed_ofLists_eq_error_iff_plain.trans ofLists_eq_error_iff_isAgainst,
    fun _ => ofLists_eq_error_iff_isAgainst, fun graph hgraph => ?_⟩
  obtain ⟨entry, index, hwell, hholds, rfl⟩ := IndexedGraph.of_ofLists_ok hgraph
  obtain ⟨plain, hplain⟩ := exists_ofLists_iff_wellFormed.mpr ⟨entry, hwell⟩
  obtain ⟨rfl, rfl⟩ := Graph.nodes_edges_of_ofLists hplain
  obtain rfl : plain.entry = entry :=
    List.singleton_injective (plain.sole_entry.symm.trans hwell.sole_entry)
  have hreads := IndexedGraph.reads_of_wellFormed hwell hholds
  refine ⟨plain, hplain, hwell, hreads, rfl, rfl, rfl, fun id => ?_, hreads.outgoing_eq,
    hreads.successor?_eq⟩
  ext node
  rw [IndexedGraph.node?_eq_some_iff hholds, Graph.node?_eq_some_iff]

/-- Of the edges two are the same, one leads back to its source and one nowhere. With all nodes
written twice there are several starts as well, and an edge to the first; what is complained of is
the number that comes again. -/
theorem index_finds_what_lists_hold_parallel_edges :
    let nodes : List Node :=
      [⟨5, .process, "", "x = 1"⟩, ⟨3, .start, "", ""⟩, ⟨4, .io, "", "print(x)"⟩]
    let edges : List Edge :=
      [⟨5, 4, none⟩, ⟨3, 5, none⟩, ⟨5, 5, some .no⟩, ⟨4, 9, none⟩, ⟨5, 4, none⟩]
    (∃ graph, IndexedGraph.ofLists nodes edges = .ok graph
        ∧ graph.entryNode = .ok ⟨3, .start, "", ""⟩
        ∧ graph.node 4 = .ok ⟨4, .io, "", "print(x)"⟩ ∧ graph.node 9 = .error (.brokenLink 9)
        ∧ graph.outgoing 5 = [⟨5, 4, none⟩, ⟨5, 5, some .no⟩, ⟨5, 4, none⟩]
        ∧ graph.successor? 5 = some 4)
      ∧ IndexedGraph.ofLists (nodes ++ nodes) (⟨4, 3, none⟩ :: edges)
        = .error (.repeatedNode 5) := by
  intro nodes edges
  obtain ⟨hmade, -, -, hfinds⟩ := index_finds_what_lists_hold nodes edges
  obtain ⟨graph, hgraph⟩ := hmade.mpr ⟨⟨3, .start, "", ""⟩, by decide, by decide, by decide⟩
  obtain ⟨plain, -, hwell, hreads, -⟩ := hfinds graph hgraph
  have hentry : plain.entry = ⟨3, .start, "", ""⟩ :=
    List.singleton_injective (hwell.sole_entry.symm.trans (by decide))
  refine ⟨⟨graph, hgraph, hentry ▸ hreads.entryNode_eq, ?_, ?_, ?_, ?_⟩, ?_⟩
  · exact (hreads.node_eq_ok_iff 4 _).mpr (by decide)
  · exact (hreads.node_eq_error_iff 9 _).mpr (by decide)
  · rw [hreads.outgoing_eq]
    decide
  · rw [hreads.successor?_eq]
    decide
  · obtain ⟨-, hagainst, -, -⟩ :=
      index_finds_what_lists_hold (nodes ++ nodes) (⟨4, 3, none⟩ :: edges)
    have hfirst : nodes ++ nodes = nodes ++ ⟨5, .process, "", "x = 1"⟩ :: nodes.tail := rfl
    exact (hagainst _).mpr (.repeatedNode hfirst (by decide) (by decide))

end Flowchart
