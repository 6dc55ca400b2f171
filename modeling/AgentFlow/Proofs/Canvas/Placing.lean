import AgentFlow.Proofs.Canvas.Layout

/-!
# Places

A layout puts nodes with different ids at different places (`place_exact`). This is read off the
whole numbers that are computed, before they are turned into coordinates.

In the row a place tells the index. In the columns the distance from the left tells the level, and
this is all that the rest depends on besides the id: the group, and with it the gap above it, belong
to the level. So inside a column the distance from the top tells the index in the group, which is
searched for by id. It does not matter how a node came to its level; those that no path reaches stand
in the first column with the starts, in one group with them.

Nodes of one id are never told apart. In the columns they share a place, and in the row only the last
one of them is left.
-/

namespace AgentFlow

theorem Placed.moved_isCopied (p : Placed) : p.moved.isCopied = p.node.isCopied := by
  rw [moved, Node.moveTo, Node.isCopied, Node.isCopied]

namespace Graph

variable {g : Graph}

/-! ## The columns -/

theorem mem_levelGroup {leveled : List (Node × Nat)} {n : Node} {level : Nat}
    (h : (n, level) ∈ leveled) : n.id ∈ levelGroup leveled level :=
  List.mem_map_of_mem (List.mem_filter.mpr ⟨h, decide_eq_true rfl⟩)

/-- In the columns, a place tells the id. -/
theorem id_eq_of_mem_placeInColumns {p q : Placed} (hp : p ∈ g.placeInColumns)
    (hq : q ∈ g.placeInColumns) (hx : p.x = q.x) (hy : p.y = q.y) : p.node.id = q.node.id := by
  obtain ⟨⟨n, k⟩, hn, rfl⟩ := List.mem_map.mp hp
  obtain ⟨⟨m, l⟩, hm, rfl⟩ := List.mem_map.mp hq
  obtain rfl : k = l := by
    change 100 + k * 300 = 100 + l * 300 at hx
    omega
  -- the group and the gap above it are those of the level, so they are the same for both
  have hidx : (levelGroup g.leveled k).idxOf n.id = (levelGroup g.leveled k).idxOf m.id := by
    have hrow := Nat.add_left_cancel (Nat.add_right_cancel hy)
    exact Nat.mul_right_cancel (by decide) hrow
  exact (List.idxOf_inj (mem_levelGroup hn)).mp hidx

theorem placeInColumns_map_node (g : Graph) : g.placeInColumns.map Placed.node = g.nodes := by
  rw [placeInColumns, leveled, List.map_map, List.map_map]
  exact List.map_id _

/-! ## The row -/

theorem mem_placeInRow {p : Placed} :
    p ∈ g.placeInRow ↔ ∃ i, ∃ h : i < g.order.length, p = ⟨g.order[i], 100 + i * 300, 200⟩ := by
  simp only [placeInRow, List.mem_mapIdx, eq_comm]

theorem placeInRow_map_node (g : Graph) : g.placeInRow.map Placed.node = g.order := by
  rw [placeInRow, map_mapIdx]
  exact (mapIdx_eq_map id g.order).trans (List.map_id _)

theorem pairwise_placeInRow (g : Graph) : g.placeInRow.Pairwise fun p q ↦ p.x < q.x := by
  rw [List.pairwise_iff_getElem]
  intro i j hi hj hij
  simp only [placeInRow, List.getElem_mapIdx]
  omega

/-- In the row, a place tells the node. -/
theorem node_eq_of_mem_placeInRow {p q : Placed} (hp : p ∈ g.placeInRow) (hq : q ∈ g.placeInRow)
    (hx : p.x = q.x) : p.node = q.node := by
  obtain ⟨i, hi, rfl⟩ := mem_placeInRow.mp hp
  obtain ⟨j, hj, rfl⟩ := mem_placeInRow.mp hq
  obtain rfl : i = j := by
    change 100 + i * 300 = 100 + j * 300 at hx
    omega
  rfl

/-- In the row, edges lead to the right. -/
theorem x_lt_of_edge {e : Edge} (he : e ∈ g.edges) {p q : Placed} (hp : p ∈ g.placeInRow)
    (hq : q ∈ g.placeInRow) (hsource : p.node.id = e.source) (htarget : q.node.id = e.target) :
    p.x < q.x := by
  obtain ⟨i, hi, rfl⟩ := mem_placeInRow.mp hp
  obtain ⟨j, hj, rfl⟩ := mem_placeInRow.mp hq
  have harc : g.digraph.Arc g.order[i].id g.order[j].id :=
    arc_iff.mpr ⟨e, he, hsource.symm, htarget.symm⟩
  have hij : i < j := by
    refine Digraph.lt_of_leads g.order_map_id_sublist (by simpa using hi) (by simpa using hj) ?_
    rw [List.getElem_map, List.getElem_map]
    exact .single harc
  change 100 + i * 300 < 100 + j * 300
  omega

/-! ## Every mode -/

theorem place_sequential (g : Graph) : g.place ExecutionMode.sequential.name = g.placeInRow :=
  if_pos rfl

theorem place_of_ne {mode : Text} (h : mode ≠ ExecutionMode.sequential.name) :
    g.place mode = g.placeInColumns :=
  if_neg h

/-- In every mode, a place tells the id. -/
theorem id_eq_of_mem_place {mode : Text} {p q : Placed} (hp : p ∈ g.place mode)
    (hq : q ∈ g.place mode) (hx : p.x = q.x) (hy : p.y = q.y) : p.node.id = q.node.id := by
  by_cases hmode : mode = ExecutionMode.sequential.name
  · rw [hmode, place_sequential] at hp hq
    rw [node_eq_of_mem_placeInRow hp hq hx]
  · rw [place_of_ne hmode] at hp hq
    exact id_eq_of_mem_placeInColumns hp hq hx hy

/-- **What a layout does.** Nodes of different ids get different places, and nothing but the place of
a node is changed. All nodes are kept in their order, except in the sequential mode: there they are
the order of the canvas, of which every node is the last one of its id, and they stand from left to
right, so that edges lead to the right. A layout is handed out unless one of the nodes that it keeps
cannot be copied. -/
theorem place_exact (g : Graph) (mode : Text) :
    (∀ p ∈ g.place mode, ∀ q ∈ g.place mode, p.node.id ≠ q.node.id → (p.x, p.y) ≠ (q.x, q.y)) ∧
      g.layout mode
        = (g.place mode).map (fun p ↦ { p.node with position := .ofInts p.x p.y }) ∧
      (mode ≠ ExecutionMode.sequential.name → (g.place mode).map Placed.node = g.nodes) ∧
      (mode = ExecutionMode.sequential.name →
        (g.place mode).map Placed.node = g.order ∧
        (∀ p ∈ g.place mode, IsLast g.nodes p.node) ∧
        ((g.place mode).Pairwise fun p q ↦ p.x < q.x) ∧
        ∀ e ∈ g.edges, ∀ p ∈ g.place mode, ∀ q ∈ g.place mode,
          p.node.id = e.source → q.node.id = e.target → p.x < q.x) ∧
      g.layoutFault? mode = copyFault? ((g.place mode).all fun p ↦ p.node.isCopied) := by
  refine ⟨fun p hp q hq hid hplace ↦ ?_, ?_, fun hmode ↦ ?_, ?_, ?_⟩
  · obtain ⟨hx, hy⟩ := Prod.mk.inj hplace
    exact hid (id_eq_of_mem_place hp hq hx hy)
  · rw [layout]
    exact List.map_congr_left fun p _ ↦ by rw [Placed.moved, Node.moveTo]
  · rw [place_of_ne hmode]
    exact g.placeInColumns_map_node
  · rintro rfl
    rw [place_sequential]
    refine ⟨g.placeInRow_map_node, fun p hp ↦ ?_, g.pairwise_placeInRow,
      fun e he p hp q hq ↦ x_lt_of_edge he hp hq⟩
    have hnode : p.node ∈ g.order := g.placeInRow_map_node ▸ List.mem_map_of_mem hp
    exact (mem_order.mp hnode).2
  · rw [layoutFault?, layout, List.all_map]
    simp only [Function.comp_def, Placed.moved_isCopied]

/-- The agent that is joined to itself stands in the column of the start and yet not on it, and in
the row the joined pair is the right way round. -/
theorem places_backward :
    (∃ p ∈ backward.place ExecutionMode.parallel.name,
      ∃ q ∈ backward.place ExecutionMode.parallel.name,
        p.node.id = "c" ∧ q.node.id = "a" ∧ (p.x, p.y) ≠ (q.x, q.y)) ∧
      ∃ p ∈ backward.place ExecutionMode.sequential.name,
        ∃ q ∈ backward.place ExecutionMode.sequential.name,
          p.node.id = "a" ∧ q.node.id = "b" ∧ p.x < q.x := by
  have hmember : ∀ {l : List Placed} {nodes : List Node}, l.map Placed.node = nodes →
      ∀ v ∈ nodes.map Node.id, ∃ p ∈ l, p.node.id = v := by
    rintro l nodes rfl v hv
    simpa using hv
  constructor
  · obtain ⟨hapart, -, hnodes, -, -⟩ := backward.place_exact ExecutionMode.parallel.name
    obtain ⟨p, hp, hc⟩ := hmember (hnodes (by decide)) "c" (by decide)
    obtain ⟨q, hq, ha⟩ := hmember (hnodes (by decide)) "a" (by decide)
    refine ⟨p, hp, q, hq, hc, ha, hapart p hp q hq ?_⟩
    rw [hc, ha]
    decide
  · obtain ⟨-, -, -, hrow, -⟩ := backward.place_exact ExecutionMode.sequential.name
    obtain ⟨horder, -, -, hright⟩ := hrow rfl
    obtain ⟨p, hp, ha⟩ := hmember horder "a" (by decide +kernel)
    obtain ⟨q, hq, hb⟩ := hmember horder "b" (by decide +kernel)
    exact ⟨p, hp, q, hq, ha, hb,
      hright (.plain "e" "a" "b") (by decide) p hp q hq ha hb⟩

end Graph

end AgentFlow
