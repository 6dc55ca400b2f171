import AgentFlow.Proofs.Canvas.Order
import AgentFlow.Proofs.Digraph.Recursion

/-!
# Cycles of a canvas, exactly

What is known of the search for cycles in a directed graph, said of nodes and edges. The search
starts from the ids of nodes and goes along all edges, so it also finds cycles through ids that no
node has, if a node reaches them; cycles that no node reaches are not found. Which of the cycles is
found, and from where its path starts, is told by the recursive search, which returns the same path.
-/

namespace AgentFlow

namespace Graph

/-- **Finding a cycle.** No path is found exactly if no node reaches a cycle. A path that is found
starts and ends with the same id, meets no other id twice, goes along edges and is reached from a
node. -/
theorem findCycle?_exact (g : Graph) :
    (g.findCycle? = none ↔
      ∀ n ∈ g.nodes, ∀ v, g.digraph.Reaches n.id v → ¬g.digraph.OnCycle v) ∧
      ∀ path, g.findCycle? = some path →
        ∃ v inner, path = v :: (inner ++ [v]) ∧ (v :: inner).Nodup ∧
          (path.IsChain fun u w ↦ ∃ e ∈ g.edges, e.source = u ∧ e.target = w) ∧
          ∃ n ∈ g.nodes, g.digraph.Reaches n.id v := by
  constructor
  · rw [findCycle?, Digraph.findCycle?_eq_none_iff]
    exact List.forall_mem_map
  · intro path hpath
    obtain ⟨v, inner, hround, hnodup, harcs, r, hr, hrv⟩ := Digraph.goesRound_of_findCycle? hpath
    obtain ⟨n, hn, rfl⟩ := List.mem_map.mp hr
    exact ⟨v, inner, hround, hnodup, harcs.imp fun _ _ ↦ arc_iff.mp, n, hn, hrv⟩

/-- A cycle of two ids that no node has. The first node reaches only an id beside it, and the second
one that id and the cycle. -/
def whirl : Graph where
  nodes := [.plain "b" "y", .plain "a" "x"]
  edges := [.plain "e" "b" "p", .plain "f" "a" "p", .plain "g" "a" "q", .plain "h" "q" "r",
    .plain "i" "r" "q"]

theorem exists_goesRound_whirl :
    ∃ v inner, (["q", "r", "q"] : List Text) = v :: (inner ++ [v]) ∧ (v :: inner).Nodup ∧
      (List.IsChain (fun u w ↦ ∃ e ∈ whirl.edges, e.source = u ∧ e.target = w)
        (["q", "r", "q"] : List Text)) ∧
      ∃ n ∈ whirl.nodes, whirl.digraph.Reaches n.id v := by
  have hpath : whirl.findCycle? = some (["q", "r", "q"] : List Text) := by
    simp [findCycle?, digraph, whirl, Node.plain, Edge.plain, Edge.arc, Digraph.findCycle?,
      Digraph.entered, Digraph.searchRoots, Digraph.search, Digraph.successors, Digraph.closePath]
  exact whirl.findCycle?_exact.2 _ hpath

/-! ## The search and the recursion -/

/-- The targets of the edges that leave an id, in the order of the edges. -/
def neighbours (g : Graph) (v : Text) : List Text :=
  (g.edges.filter fun e ↦ e.source = v).map Edge.target

theorem successors_digraph (g : Graph) : g.digraph.successors = g.neighbours := by
  funext v
  rw [Digraph.successors, digraph, List.filter_map, List.map_map, neighbours]
  rfl

/-- **The search is the recursive one.** What is found is what the recursion returns that starts with
all ids white, tries the ids of the nodes in order and goes along the edges in order. -/
theorem findCycle?_eq_iff (g : Graph) (found : Option (List Text)) :
    g.findCycle? = found ↔
      Digraph.Returns g.neighbours (fun _ ↦ .white) (g.nodes.map Node.id) found := by
  rw [findCycle?, Digraph.findCycle?_eq_iff_returns, successors_digraph]
  rfl

/-! ## The search and the order -/

/-- Where edges go forward in a numbering of the ids, there is no cycle. -/
theorem hasCycle_eq_false_of_lt {g : Graph} (place : Text → Nat)
    (hforward : ∀ e ∈ g.edges, place e.source < place e.target) : g.hasCycle = false := by
  have hlt : ∀ u v, g.digraph.Arc u v → place u < place v := by
    intro u v huv
    obtain ⟨e, he, rfl, rfl⟩ := arc_iff.mp huv
    exact hforward e he
  rw [hasCycle, Digraph.hasCycle_eq_false_iff]
  intro r _ v _ hcycle
  exact (hcycle.lt_of_forward place hlt).false

theorem foreign_iff {g : Graph} {v : Text} :
    g.digraph.Foreign v ↔ v ∉ g.nodes.map Node.id ∧ ∃ e ∈ g.edges, e.source = v := by
  refine and_congr_right fun _ ↦ ⟨?_, ?_⟩
  · rintro ⟨w, hw⟩
    obtain ⟨e, he, hs, -⟩ := arc_iff.mp hw
    exact ⟨e, he, hs⟩
  · rintro ⟨e, he, hs⟩
    exact ⟨e.target, arc_iff.mpr ⟨e, he, hs, rfl⟩⟩

theorem hasCycle_eq_false_iff {g : Graph}
    (hsources : ∀ e ∈ g.edges, e.source ∈ g.nodes.map Node.id) :
    g.hasCycle = false ↔ ∀ n ∈ g.nodes, n.id ∈ g.digraph.order := by
  have hforeign : ∀ u, ¬g.digraph.Foreign u := by
    intro u hu
    obtain ⟨hmem, e, he, rfl⟩ := foreign_iff.mp hu
    exact hmem (hsources e he)
  rw [hasCycle, Digraph.hasCycle_eq_false_iff_forall_mem_order hforeign]
  exact List.forall_mem_map

/-- Where no cycle is found, a node can only be held back by an edge that no node leaves. -/
theorem exists_edge_of_heldBack {g : Graph} {n : Node} (hcycle : g.hasCycle = false)
    (hn : n ∈ g.nodes) (hheld : g.digraph.HeldBack n.id) :
    ∃ e ∈ g.edges, e.source ∉ g.nodes.map Node.id ∧ g.digraph.Leads e.source n.id := by
  obtain ⟨u, hforeign, hleads⟩ := hheld.exists_foreign (Digraph.hasCycle_eq_false_iff.mp hcycle)
    (List.mem_map_of_mem hn)
  obtain ⟨hu, e, he, rfl⟩ := foreign_iff.mp hforeign
  exact ⟨e, he, hu, hleads⟩

/-- **The search certifies the order.** If all edges leave nodes, no cycle is found exactly if the
order holds every id of a node. If no cycle is found, whatever edges leave, the ids of nodes that
are missing from the order are reached from an edge that leaves no node. -/
theorem hasCycle_certifies_order (g : Graph) :
    ((∀ e ∈ g.edges, e.source ∈ g.nodes.map Node.id) →
      (g.hasCycle = false ↔ ∀ n ∈ g.nodes, n.id ∈ g.order.map Node.id)) ∧
    (g.hasCycle = false → ∀ n ∈ g.nodes, n.id ∉ g.order.map Node.id →
      ∃ e ∈ g.edges, e.source ∉ g.nodes.map Node.id ∧ g.digraph.Leads e.source n.id) := by
  constructor
  · intro hsources
    rw [hasCycle_eq_false_iff hsources]
    refine forall₂_congr fun n hn ↦ ?_
    rw [order_map_id, List.mem_filter, decide_eq_true_iff]
    exact (and_iff_left (List.mem_map_of_mem hn)).symm
  · intro hcycle n hn hmissing
    refine exists_edge_of_heldBack hcycle hn ?_
    by_contra hfree
    exact hmissing (mem_order_map_id.mpr ⟨List.mem_map_of_mem hn, hfree⟩)

/-- A node that enters another one and an id beside it. -/
def outlet : Graph where
  nodes := [.plain "b" "y", .plain "a" "x"]
  edges := [.plain "e" "a" "b", .plain "f" "a" "p"]

/-- A node that only an id beside it enters, and that enters another node. -/
def inlet : Graph where
  nodes := [.plain "b" "y", .plain "a" "x"]
  edges := [.plain "e" "p" "a", .plain "f" "a" "b"]

theorem hasCycle_certifies_order_inlet :
    (∀ n ∈ outlet.nodes, n.id ∈ outlet.order.map Node.id) ∧
      ∃ e ∈ inlet.edges, e.source ∉ inlet.nodes.map Node.id ∧
        inlet.digraph.Leads e.source ("b" : Text) := by
  have houtlet : outlet.hasCycle = false :=
    hasCycle_eq_false_of_lt (["a", "b", "p"] : List Text).idxOf (by decide)
  have hinlet : inlet.hasCycle = false :=
    hasCycle_eq_false_of_lt (["p", "a", "b"] : List Text).idxOf (by decide)
  exact ⟨(outlet.hasCycle_certifies_order.1 (by decide)).mp houtlet,
    inlet.hasCycle_certifies_order.2 hinlet (.plain "b" "y") (by decide) (by decide +kernel)⟩

end Graph

end AgentFlow
