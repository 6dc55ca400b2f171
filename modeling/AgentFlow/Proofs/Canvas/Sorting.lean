import AgentFlow.Proofs.Canvas.Order
import AgentFlow.Proofs.Digraph.Tie
import AgentFlow.Proofs.Digraph.Trim

/-!
# The order of a canvas in detail

Which nodes have a place in the order, and that edges go forward, leaves three questions.

* In which order do nodes come that no edge tells apart? By depth, and within a depth by the edge
  that lets a node join, which is the last one into it (`ties_exact`).
* What do edges do that enter an id without a node? They let it take part in the run, so that it
  holds nothing back. Without such edges the order loses the nodes behind it (`order_trimmed`).
* What becomes of an order that is sorted again? Nothing (`order_eq_self`).
-/

namespace AgentFlow

namespace Graph

variable {g : Graph}

/-! ## Ties -/

/-- The edge `e` with the number `i` lets an id join: of the edges into the id none leaves an id
that is settled later, and none from the same id comes later. -/
structure Releases (g : Graph) (e : Edge) (i : Nat) (x : Text) : Prop where
  /-- The edge. -/
  edge : g.edges[i]? = some e
  /-- It enters the id. -/
  target : e.target = x
  /-- Its source is settled last. -/
  source_last : ∀ d ∈ g.edges, d.target = x →
    g.digraph.order.idxOf d.source ≤ g.digraph.order.idxOf e.source
  /-- It is the last one from its source. -/
  edge_last : ∀ j d, g.edges[j]? = some d → d.source = e.source → d.target = x → j ≤ i

/-- Texts are compared in two ways, which find the same place. -/
private theorem idxOf_eq (l : List Text) (x : Text) :
    @List.idxOf Text instBEqOfDecidableEq x l = l.idxOf x := by
  rw [lawful_beq_subsingleton (instBEqOfDecidableEq : BEq Text) List.instBEq]

theorem exists_releases {u x : Text} {i : Nat} (h : g.digraph.Releases u i x) :
    ∃ e, g.Releases e i x := by
  have harc := h.arc
  rw [digraph, List.getElem?_map, Option.map_eq_some_iff] at harc
  obtain ⟨e, he, heq⟩ := harc
  obtain ⟨hsource, htarget⟩ := Prod.mk.inj heq
  refine ⟨e, he, htarget, fun d hd hdx ↦ ?_, fun j d hd hdu hdx ↦ ?_⟩
  · have hle := h.source_last d.source (arc_iff.mpr ⟨d, hd, rfl, hdx⟩)
    rwa [idxOf_eq, idxOf_eq, ← hsource] at hle
  · refine h.arc_last j ?_
    rw [digraph, List.getElem?_map, hd, Option.map_some, ← hsource, ← hdu, ← hdx]
    rfl

theorem Releases.digraph {e : Edge} {i : Nat} {x : Text} (h : g.Releases e i x) :
    g.digraph.Releases e.source i x where
  arc := by
    rw [Graph.digraph, List.getElem?_map, h.edge, Option.map_some, Edge.arc, h.target]
  source_last t ht := by
    obtain ⟨d, hd, rfl, hdx⟩ := arc_iff.mp ht
    rw [idxOf_eq, idxOf_eq]
    exact h.source_last d hd hdx
  arc_last j hj := by
    rw [Graph.digraph, List.getElem?_map, Option.map_eq_some_iff] at hj
    obtain ⟨d, hd, heq⟩ := hj
    obtain ⟨hsource, htarget⟩ := Prod.mk.inj heq
    exact h.edge_last j d hd hsource htarget

/-- **Ties.** The nodes of the order are the ids of the run that nodes have. Along the run the depth
never goes down; ids of depth zero come as their first nodes do; and the others come in the order of
the edges that let them join, by the place of the source in the run and then by the place of the
edge. -/
theorem ties_exact (g : Graph) :
    g.order.map Node.id = g.digraph.order.filter (fun x ↦ x ∈ g.nodes.map Node.id) ∧
      (∀ x ∈ g.digraph.order, (∀ e ∈ g.edges, e.target ≠ x) → g.digraph.depth x = 0) ∧
      (∀ x ∈ g.digraph.order, (∃ e ∈ g.edges, e.target = x) →
        ∃ e ∈ g.edges, e.target = x ∧ g.digraph.depth x = g.digraph.depth e.source + 1 ∧
          ∀ d ∈ g.edges, d.target = x → g.digraph.depth d.source ≤ g.digraph.depth e.source) ∧
      (g.digraph.order.Pairwise fun x y ↦ g.digraph.depth x ≤ g.digraph.depth y) ∧
      (∀ x ∈ g.digraph.order, g.digraph.depth x = 0 → x ∈ g.nodes.map Node.id) ∧
      (∀ x ∈ g.digraph.order, ∀ y ∈ g.digraph.order,
        g.digraph.depth x = 0 → g.digraph.depth y = 0 →
          (g.digraph.order.idxOf x < g.digraph.order.idxOf y ↔
            (g.nodes.map Node.id).idxOf x < (g.nodes.map Node.id).idxOf y)) ∧
      (∀ x ∈ g.digraph.order, 0 < g.digraph.depth x → ∃ e i, g.Releases e i x) ∧
      ∀ x ∈ g.digraph.order, ∀ y ∈ g.digraph.order, ∀ e i d j,
        g.Releases e i x → g.Releases d j y →
          (g.digraph.order.idxOf x < g.digraph.order.idxOf y ↔
            toLex (g.digraph.order.idxOf e.source, i)
              < toLex (g.digraph.order.idxOf d.source, j)) := by
  refine ⟨g.order_map_id, fun x hx h ↦ ?_, fun x hx h ↦ ?_, ?_, fun x hx h ↦ ?_, ?_, ?_, ?_⟩
  · refine (Digraph.depth_eq_zero_iff hx).mpr fun u hu ↦ ?_
    obtain ⟨e, he, -, ht⟩ := arc_iff.mp hu
    exact h e he ht
  · obtain ⟨d, hd, hdx⟩ := h
    obtain ⟨u, hu, hdepth⟩ := Digraph.exists_depth_eq hx (arc_iff.mpr ⟨d, hd, rfl, hdx⟩)
    obtain ⟨e, he, rfl, hex⟩ := arc_iff.mp hu
    refine ⟨e, he, hex, hdepth, fun c hc hcx ↦ ?_⟩
    have hlt := Digraph.depth_lt_of_arc (arc_iff.mpr ⟨c, hc, rfl, hcx⟩) hx
    omega
  · exact g.digraph.pairwise_depth
  · exact Digraph.mem_vertices_of_mem_sources (Digraph.mem_sources_iff.mpr ⟨hx, h⟩)
  · intro x hx y hy hx0 hy0
    have hiff := Digraph.idxOf_lt_idxOf_iff_of_sources (Digraph.mem_sources_iff.mpr ⟨hx, hx0⟩)
      (Digraph.mem_sources_iff.mpr ⟨hy, hy0⟩)
    rwa [idxOf_eq, idxOf_eq, idxOf_eq, idxOf_eq] at hiff
  · intro x hx hpos
    obtain ⟨u, i, hu⟩ := Digraph.exists_releases_of_depth_pos hx hpos
    obtain ⟨e, he⟩ := exists_releases hu
    exact ⟨e, i, he⟩
  · intro x hx y hy e i d j he hd
    have hiff := Digraph.idxOf_lt_idxOf_iff hx hy he.digraph hd.digraph
    rwa [idxOf_eq, idxOf_eq, idxOf_eq, idxOf_eq] at hiff

/-- Two agents that both enter two others. Of the edges from the second, one is doubled. -/
def doubled : Graph where
  nodes := [.plain "c" "z", .plain "d" "t", .plain "a" "x", .plain "b" "y"]
  edges := [.plain "e" "b" "c", .plain "f" "b" "d", .plain "g" "a" "d", .plain "h" "b" "c"]

theorem exists_releases_doubled :
    ∃ e i d j, doubled.Releases e i "d" ∧ doubled.Releases d j "c" ∧
      toLex (doubled.digraph.order.idxOf e.source, i)
        < toLex (doubled.digraph.order.idxOf d.source, j) := by
  have hpos : ∀ x ∈ doubled.digraph.order, ∀ e ∈ doubled.edges, e.target = x →
      0 < doubled.digraph.depth x := fun x hx e he ht ↦
    Nat.pos_of_ne_zero fun hzero ↦
      (Digraph.depth_eq_zero_iff hx).mp hzero e.source (arc_iff.mpr ⟨e, he, rfl, ht⟩)
  have hc : ("c" : Text) ∈ doubled.digraph.order := by decide +kernel
  have hd : ("d" : Text) ∈ doubled.digraph.order := by decide +kernel
  obtain ⟨-, -, -, -, -, -, hreleased, hties⟩ := doubled.ties_exact
  obtain ⟨e, i, he⟩ := hreleased "d" hd (hpos "d" hd (.plain "f" "b" "d") (by decide) rfl)
  obtain ⟨d, j, hd'⟩ := hreleased "c" hc (hpos "c" hc (.plain "e" "b" "c") (by decide) rfl)
  exact ⟨e, i, d, j, he, hd', (hties "d" hd "c" hc e i d j he hd').mp (by decide +kernel)⟩

/-! ## Edges that enter no node -/

/-- The canvas without the edges that enter an id without a node. -/
def trimmed (g : Graph) : Graph :=
  ⟨g.nodes, g.edges.filter fun e ↦ e.target ∈ g.nodes.map Node.id⟩

theorem digraph_trimmed (g : Graph) : g.trimmed.digraph = g.digraph.trim := by
  refine congrArg₂ Digraph.mk rfl ?_
  rw [digraph, List.filter_map, trimmed]
  exact congrArg (List.map Edge.arc) (List.filter_congr fun e _ ↦ decide_eq_decide.mpr Iff.rfl)

theorem order_trimmed_sublist (g : Graph) : g.trimmed.order.Sublist g.order := by
  rw [order, digraph_trimmed, Digraph.order_trim]
  exact List.filter_sublist.filterMap _

theorem mem_order_trimmed {n : Node} (hn : n ∈ g.order) :
    n ∈ g.trimmed.order ↔ n.id ∈ g.digraph.trim.order := by
  rw [mem_order, digraph_trimmed, Digraph.mem_order_iff_not_heldBack]
  exact and_iff_left (mem_order.mp hn).2

theorem mem_order_map_id_iff {v : Text} :
    v ∈ g.order.map Node.id ↔ v ∈ g.digraph.order ∧ v ∈ g.nodes.map Node.id := by
  rw [order_map_id, List.mem_filter, decide_eq_true_iff]

theorem mem_digraph_order {n : Node} (hn : n ∈ g.order) : n.id ∈ g.digraph.order :=
  Digraph.mem_order_iff_not_heldBack.mpr (mem_order.mp hn).1

theorem order_trimmed_eq_iff (g : Graph) :
    g.trimmed.order = g.order ↔ ∀ n ∈ g.order, n ∈ g.trimmed.order := by
  refine ⟨fun h n hn ↦ h ▸ hn, fun h ↦ ?_⟩
  have hnodup : g.order.Nodup := g.nodup_order_map_id.of_map
  exact g.order_trimmed_sublist.eq_of_length_le (hnodup.subperm h).length_le

/-- **Without the edges that enter no node** the order loses the nodes that are reached from an id
without a node, and keeps the others as they come. It loses none exactly if the edges into its nodes
all leave nodes. -/
theorem order_trimmed (g : Graph) :
    g.trimmed.order.Sublist g.order ∧
      (∀ n ∈ g.order, n ∈ g.trimmed.order ↔
        ∀ u, g.digraph.Reaches u n.id → u ∈ g.nodes.map Node.id) ∧
      (g.trimmed.order = g.order ↔
        ∀ e ∈ g.edges, e.target ∈ g.order.map Node.id → e.source ∈ g.nodes.map Node.id) := by
  refine ⟨g.order_trimmed_sublist, fun n hn ↦ ?_, ?_⟩
  · rw [mem_order_trimmed hn]
    exact Digraph.mem_order_trim_iff (mem_digraph_order hn)
  · rw [order_trimmed_eq_iff]
    calc (∀ n ∈ g.order, n ∈ g.trimmed.order)
        ↔ ∀ v ∈ g.digraph.order, v ∈ g.nodes.map Node.id → v ∈ g.digraph.trim.order := by
          refine ⟨fun h v hv hid ↦ ?_, fun h n hn ↦ (mem_order_trimmed hn).mpr ?_⟩
          · obtain ⟨n, hn, rfl⟩ := List.mem_map.mp (mem_order_map_id_iff.mpr ⟨hv, hid⟩)
            exact (mem_order_trimmed hn).mp (h n hn)
          · exact h n.id (mem_digraph_order hn) (List.mem_map_of_mem (mem_order.mp hn).2.mem)
      _ ↔ ∀ u v, g.digraph.Arc u v → v ∈ g.digraph.order → v ∈ g.nodes.map Node.id →
            u ∈ g.nodes.map Node.id := g.digraph.forall_mem_order_trim_iff
      _ ↔ ∀ e ∈ g.edges, e.target ∈ g.order.map Node.id → e.source ∈ g.nodes.map Node.id := by
          refine ⟨fun h e he ht ↦ ?_, fun h u v ha hv hid ↦ ?_⟩
          · obtain ⟨hv, hid⟩ := mem_order_map_id_iff.mp ht
            exact h e.source e.target (arc_iff.mpr ⟨e, he, rfl, rfl⟩) hv hid
          · obtain ⟨e, he, rfl, rfl⟩ := arc_iff.mp ha
            exact h e he (mem_order_map_id_iff.mpr ⟨hv, hid⟩)

/-- A node that enters another one by way of an id without a node. -/
def wayside : Graph where
  nodes := [.plain "a" "x", .plain "b" "y"]
  edges := [.plain "e" "a" "p", .plain "f" "p" "b"]

theorem notMem_order_trimmed_wayside :
    ∃ n ∈ wayside.order, n ∉ wayside.trimmed.order ∧ wayside.trimmed.order ≠ wayside.order := by
  obtain ⟨-, hmem, -⟩ := wayside.order_trimmed
  have hb : (.plain "b" "y" : Node) ∈ wayside.order := by decide +kernel
  have hlost : (.plain "b" "y" : Node) ∉ wayside.trimmed.order := by
    intro h
    have hp := (hmem _ hb).mp h "p" (Or.inr (.single (arc_iff.mpr ⟨.plain "f" "p" "b", by decide⟩)))
    exact absurd hp (by decide)
  exact ⟨_, hb, hlost, fun heq ↦ hlost (heq ▸ hb)⟩

theorem exists_order_trimmed_ne : ∃ g : Graph, g.trimmed.order ≠ g.order :=
  ⟨wayside, by decide +kernel⟩

/-! ## Sorting again -/

/-- Ids without a node are not looked up. -/
theorem filterMap_lastNode?_filter (nodes : List Node) (l : List Text) :
    (l.filter fun v ↦ v ∈ nodes.map Node.id).filterMap (lastNode? nodes)
      = l.filterMap (lastNode? nodes) := by
  rw [List.filterMap_filter]
  refine List.filterMap_congr fun v _ ↦ ?_
  cases h : lastNode? nodes v with
  | none => exact ite_self _
  | some n => rw [if_pos (decide_eq_true (lastNode?_isSome_iff.mp (by rw [h]; rfl)))]

/-- Where ids are different, looking up all of them gives the nodes. -/
theorem filterMap_lastNode?_map_id {nodes : List Node} (h : (nodes.map Node.id).Nodup) :
    (nodes.map Node.id).filterMap (lastNode? nodes) = nodes := by
  have hlast : ∀ n ∈ nodes, (lastNode? nodes ∘ Node.id) n = some n := fun n hn ↦
    lastNode?_eq_some_iff.mpr ⟨rfl, (isLast_iff_mem h).mpr hn⟩
  rw [List.filterMap_map, List.filterMap_congr hlast, List.filterMap_some]

/-- **A canvas whose nodes have the ids of an order in turn** is in its order. -/
theorem order_eq_self {nodes : List Node} (h : nodes.map Node.id = g.order.map Node.id) :
    (⟨nodes, g.edges⟩ : Graph).order = nodes := by
  have hdigraph : (⟨nodes, g.edges⟩ : Graph).digraph = g.digraph.sorted := by
    refine congrArg₂ Digraph.mk ?_ rfl
    rw [h, order_map_id]
    exact List.filter_congr fun v _ ↦ decide_eq_decide.mpr Iff.rfl
  have hids : g.digraph.order.filter (fun v ↦ v ∈ nodes.map Node.id) = nodes.map Node.id := by
    rw [h]
    refine Eq.trans ?_ (Digraph.filter_mem_of_sublist g.order_map_id_sublist g.digraph.nodup_order)
    exact List.filter_congr fun v _ ↦ decide_eq_decide.mpr Iff.rfl
  rw [order, hdigraph, Digraph.order_sorted, ← filterMap_lastNode?_filter, hids]
  exact filterMap_lastNode?_map_id (h ▸ g.nodup_order_map_id)

end Graph

end AgentFlow
