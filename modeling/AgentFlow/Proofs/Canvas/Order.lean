import AgentFlow.Canvas.Order
import AgentFlow.Proofs.Digraph.Order

/-!
# The order of a canvas, exactly

What is known of the order of a directed graph is carried over to the nodes of a canvas. Ids and
nodes differ in two ways. An id may be that of several nodes, of which the last one counts
(`IsLast`); and an id that is only the target of an edge takes part in the run and is dropped from
the result, so the order of the ids that are left is a part of the run and not all of it
(`order_map_id`).
-/

namespace AgentFlow

/-! ## The node that counts -/

/-- A node is the last one of its id. -/
def IsLast (nodes : List Node) (n : Node) : Prop :=
  ∃ before after, nodes = before ++ n :: after ∧ ∀ m ∈ after, m.id ≠ n.id

theorem lastNode?_eq_some_iff {nodes : List Node} {v : Text} {n : Node} :
    lastNode? nodes v = some n ↔ n.id = v ∧ IsLast nodes n := by
  rw [lastNode?, List.findRev?_eq_find?_reverse, List.find?_eq_some_iff_append,
    decide_eq_true_iff]
  refine and_congr_right fun hn ↦ ⟨?_, ?_⟩
  · rintro ⟨after, before, heq, hafter⟩
    refine ⟨before.reverse, after.reverse, ?_, fun m hm ↦ ?_⟩
    · rw [← List.reverse_reverse nodes, heq]
      simp
    · simpa [hn] using hafter m (List.mem_reverse.mp hm)
  · rintro ⟨before, after, rfl, hafter⟩
    refine ⟨after.reverse, before.reverse, by simp, fun m hm ↦ ?_⟩
    simpa [hn] using hafter m (List.mem_reverse.mp hm)

theorem IsLast.mem {nodes : List Node} {n : Node} (h : IsLast nodes n) : n ∈ nodes := by
  obtain ⟨before, after, rfl, -⟩ := h
  exact List.mem_append_right _ List.mem_cons_self

/-- Where ids are different, every node is the last one of its id. -/
theorem isLast_iff_mem {nodes : List Node} (h : (nodes.map Node.id).Nodup) {n : Node} :
    IsLast nodes n ↔ n ∈ nodes := by
  refine ⟨IsLast.mem, fun hn ↦ ?_⟩
  obtain ⟨before, after, rfl⟩ := List.append_of_mem hn
  refine ⟨before, after, rfl, fun m hm hid ↦ ?_⟩
  rw [List.map_append, List.map_cons, List.nodup_append, List.nodup_cons] at h
  exact h.2.1.1 (hid ▸ List.mem_map_of_mem hm)

theorem lastNode?_isSome_iff {nodes : List Node} {v : Text} :
    (lastNode? nodes v).isSome ↔ v ∈ nodes.map Node.id := by
  rw [lastNode?, List.findRev?_eq_find?_reverse, List.find?_isSome]
  simp

/-- Looking up ids and forgetting the nodes leaves the ids that some node has. -/
theorem map_id_filterMap_lastNode? (nodes : List Node) (l : List Text) :
    (l.filterMap (lastNode? nodes)).map Node.id = l.filter fun v ↦ v ∈ nodes.map Node.id := by
  induction l with
  | nil => rfl
  | cons v l ih =>
    cases h : lastNode? nodes v with
    | none =>
      have hv : v ∉ nodes.map Node.id := by rw [← lastNode?_isSome_iff, h]; simp
      rw [List.filterMap_cons_none h, ih, List.filter_cons_of_neg (by simpa using hv)]
    | some n =>
      have hv : v ∈ nodes.map Node.id := by rw [← lastNode?_isSome_iff, h]; simp
      rw [List.filterMap_cons_some h, List.map_cons, ih, (lastNode?_eq_some_iff.mp h).1,
        List.filter_cons_of_pos (by simpa using hv)]

/-! ## Plain nodes and edges -/

/-- An agent of which only the canister is known. -/
def Node.plain (id canister : Text) : Node where
  id := id
  kind := .agent
  position := .origin
  data := { NodeData.empty with canisterId := some canister }

/-- An edge that is always followed. -/
def Edge.plain (id source target : Text) : Edge := ⟨id, source, target, .default, false, none⟩

namespace Graph

/-! ## Arcs and edges -/

theorem arc_iff {g : Graph} {u v : Text} :
    g.digraph.Arc u v ↔ ∃ e ∈ g.edges, e.source = u ∧ e.target = v := by
  simp [Digraph.Arc, digraph, Edge.arc]

theorem entered_iff {g : Graph} {v : Text} :
    g.digraph.Entered v ↔ v ∈ g.nodes.map Node.id ∨ ∃ e ∈ g.edges, e.target = v := by
  rw [Digraph.Entered]
  refine or_congr_right ⟨?_, ?_⟩
  · rintro ⟨u, hu⟩
    obtain ⟨e, he, -, ht⟩ := arc_iff.mp hu
    exact ⟨e, he, ht⟩
  · rintro ⟨e, he, ht⟩
    exact ⟨e.source, arc_iff.mpr ⟨e, he, rfl, ht⟩⟩

/-! ## Nodes and ids of the order -/

theorem order_map_id (g : Graph) :
    g.order.map Node.id = g.digraph.order.filter fun v ↦ v ∈ g.nodes.map Node.id :=
  map_id_filterMap_lastNode? _ _

theorem mem_order {g : Graph} {n : Node} :
    n ∈ g.order ↔ ¬g.digraph.HeldBack n.id ∧ IsLast g.nodes n := by
  rw [order, List.mem_filterMap, ← Digraph.mem_order_iff_not_heldBack]
  constructor
  · rintro ⟨v, hv, hn⟩
    obtain ⟨rfl, hlast⟩ := lastNode?_eq_some_iff.mp hn
    exact ⟨hv, hlast⟩
  · rintro ⟨hv, hlast⟩
    exact ⟨n.id, hv, lastNode?_eq_some_iff.mpr ⟨rfl, hlast⟩⟩

theorem mem_order_map_id {g : Graph} {v : Text} :
    v ∈ g.order.map Node.id ↔ v ∈ g.nodes.map Node.id ∧ ¬g.digraph.HeldBack v := by
  rw [order_map_id, List.mem_filter, decide_eq_true_iff, Digraph.mem_order_iff_not_heldBack,
    and_comm]

theorem order_map_id_sublist (g : Graph) : (g.order.map Node.id).Sublist g.digraph.order := by
  rw [order_map_id]
  exact List.filter_sublist

theorem nodup_order_map_id (g : Graph) : (g.order.map Node.id).Nodup :=
  g.digraph.nodup_order.sublist g.order_map_id_sublist

/-! ## The order in full -/

/-- **The order of a canvas.** Its nodes are the last ones of their ids and have different ids; an
id is missing exactly if an id from which it is reached, itself included, lies on a cycle or is
neither that of a node nor the target of an edge; and edges go forward. -/
theorem order_exact (g : Graph) :
    (g.order.map Node.id).Nodup ∧
      (∀ n ∈ g.order, IsLast g.nodes n) ∧
      (∀ v ∈ g.nodes.map Node.id, v ∈ g.order.map Node.id ↔
        ∀ u, g.digraph.Reaches u v → ¬g.digraph.OnCycle u ∧
          (u ∈ g.nodes.map Node.id ∨ ∃ e ∈ g.edges, e.target = u)) ∧
      ∀ e ∈ g.edges, e.source ∈ g.order.map Node.id → e.target ∈ g.order.map Node.id →
        (g.order.map Node.id).idxOf e.source < (g.order.map Node.id).idxOf e.target := by
  refine ⟨g.nodup_order_map_id, fun n hn ↦ (mem_order.mp hn).2, fun v hv ↦ ?_, fun e he hs ht ↦ ?_⟩
  · rw [mem_order_map_id, Digraph.not_heldBack_iff]
    simp only [hv, true_and, entered_iff]
  · refine Digraph.lt_of_leads g.order_map_id_sublist (List.idxOf_lt_length_iff.mpr hs)
      (List.idxOf_lt_length_iff.mpr ht) ?_
    rw [List.getElem_idxOf, List.getElem_idxOf]
    exact .single (arc_iff.mpr ⟨e, he, rfl, rfl⟩)

/-- A joined pair that is listed the wrong way round, beside a node that is joined to itself. -/
def backward : Graph where
  nodes := [.plain "b" "y", .plain "c" "z", .plain "a" "x"]
  edges := [.plain "e" "a" "b", .plain "f" "c" "c"]

theorem idxOf_order_backward :
    (backward.order.map Node.id).idxOf ("a" : Text)
      < (backward.order.map Node.id).idxOf ("b" : Text) :=
  backward.order_exact.2.2.2 (.plain "e" "a" "b") (by decide) (by decide +kernel)
    (by decide +kernel)

end Graph

end AgentFlow
