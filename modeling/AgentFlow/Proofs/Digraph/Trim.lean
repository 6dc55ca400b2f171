import AgentFlow.Proofs.Digraph.Copy

/-!
# Parts that decide for themselves

A part of the ids that holds the sources of all arcs into it (`Closed`) has an order of its own,
which is its share of the order of the whole graph (`order_part`). So graphs that agree on such a
part order it alike, and two changes to a graph are measured by this.

Sorting again with the ids of the order for vertices changes nothing (`order_sorted`). The ids that
were left out are named by arcs only from then on, but they still wait for the same arcs, and the
order starts with the ids that wait for nothing.

Leaving out the arcs into ids that are no vertices (`trim`) is not as harmless as it looks. Such an
id takes part in the run, and once it has left the queue it holds nothing back. Without the arcs
into it it is not entered any more, and then it holds back whatever is behind it. So the order of
the trimmed graph is the order without the ids that are reached from an id that is no vertex
(`order_trim`, `mem_order_trim_iff`).
-/

namespace AgentFlow

namespace Digraph

variable {α : Type} [DecidableEq α] {g g' : Digraph α} {p : α → Bool} {u v : α}

/-! ## Parts -/

/-- With an id, a part holds the sources of the arcs into it. -/
def Closed (g : Digraph α) (p : α → Bool) : Prop := ∀ u v, g.Arc u v → p v → p u

/-- A part by itself, with the ids that wait for nothing for vertices. -/
def part (g : Digraph α) (p : α → Bool) : Digraph α :=
  ⟨g.sources.filter p, g.arcs.filter fun a ↦ p a.2⟩

/-- **The order of a part.** -/
theorem order_part (h : g.Closed p) : (g.part p).order = g.order.filter p := by
  have c : g.Copies p id (g.part p) := ⟨h _ _, fun _ _ ↦ id, by simp [part]⟩
  have hnodup : (g.part p).vertices.Nodup := by
    rw [part, sources_eq]
    exact (g.nodup_entered.filter _).filter _
  have hwait : ∀ v ∈ g.sources.filter p, g.inDegree v = 0 := fun v hv ↦
    inDegree_eq_zero_iff.mpr fun _ ↦ not_arc_of_mem_sources (List.mem_of_mem_filter hv)
  have hsources : (g.part p).sources = (g.sources.filter p).map id := by
    rw [c.sources_eq (fun v hv ↦ (List.mem_filter.mp hv).2) (List.map_id _).symm hnodup,
      List.filter_eq_self.mpr fun v hv ↦ decide_eq_true (hwait v hv)]
  rw [c.order_eq hsources, List.map_id]

omit [DecidableEq α] in
theorem Closed.of_arcs_eq (h : g.Closed p)
    (harcs : (g'.arcs.filter fun a ↦ p a.2) = g.arcs.filter fun a ↦ p a.2) : g'.Closed p := by
  intro u v ha hv
  have hmem : (u, v) ∈ g.arcs.filter fun a ↦ p a.2 := harcs ▸ List.mem_filter.mpr ⟨ha, hv⟩
  exact h u v (List.mem_of_mem_filter hmem) hv

omit [DecidableEq α] in
theorem Closed.of_reaches (h : g.Closed p) (huv : g.Reaches u v) (hv : p v) : p u := by
  obtain rfl | huv := huv
  · exact hv
  · induction huv with
    | single ha => exact h _ _ ha hv
    | tail _ ha ih => exact ih (h _ _ ha hv)

/-- Graphs that agree on a part order it alike. -/
theorem order_filter_eq (h : g.Closed p)
    (harcs : (g'.arcs.filter fun a ↦ p a.2) = g.arcs.filter fun a ↦ p a.2)
    (hsources : g'.sources.filter p = g.sources.filter p) :
    g'.order.filter p = g.order.filter p := by
  rw [← order_part h, ← order_part (h.of_arcs_eq harcs), part, part, harcs, hsources]

/-! ## Sorting again -/

/-- The graph with its vertices in their order and without those that have no place in it. -/
def sorted (g : Digraph α) : Digraph α := ⟨g.order.filter fun v ↦ v ∈ g.vertices, g.arcs⟩

theorem sources_sorted (g : Digraph α) : g.sorted.sources = g.sources := by
  calc g.sorted.sources
      = (g.order.filter fun v ↦ v ∈ g.vertices).filter fun v ↦ g.inDegree v = 0 :=
        sources_eq_of_nodup (g.nodup_order.filter _)
    _ = g.sources.filter fun v ↦ v ∈ g.vertices := by
        rw [List.filter_comm, order_filter_inDegree]
    _ = g.sources :=
        List.filter_eq_self.mpr fun v hv ↦ decide_eq_true (mem_vertices_of_mem_sources hv)

/-- **Sorting again.** -/
theorem order_sorted (g : Digraph α) : g.sorted.order = g.order := by
  have hclosed : g.Closed fun _ ↦ true := fun _ _ _ _ ↦ rfl
  have heq : g.sorted.order.filter (fun _ ↦ true) = g.order.filter fun _ ↦ true :=
    order_filter_eq hclosed rfl (by rw [sources_sorted])
  rwa [List.filter_true, List.filter_true] at heq

/-! ## Leaving out arcs -/

/-- The graph without the arcs into ids that are no vertices. -/
def trim (g : Digraph α) : Digraph α := ⟨g.vertices, g.arcs.filter fun a ↦ a.2 ∈ g.vertices⟩

theorem arc_trim_iff : g.trim.Arc u v ↔ g.Arc u v ∧ v ∈ g.vertices := by
  rw [Arc, trim, List.mem_filter, decide_eq_true_iff]
  rfl

theorem entered_trim_iff : g.trim.Entered v ↔ v ∈ g.vertices := by
  refine ⟨?_, Or.inl⟩
  rintro (hv | ⟨u, ha⟩)
  · exact hv
  · exact (arc_trim_iff.mp ha).2

theorem mem_vertices_of_mem_order_trim (h : v ∈ g.trim.order) : v ∈ g.vertices :=
  entered_trim_iff.mp (mem_order_iff.mp h).1

theorem closed_order_trim (g : Digraph α) : g.Closed fun v ↦ v ∈ g.trim.order := by
  intro u v ha hv
  have hv := of_decide_eq_true hv
  exact decide_eq_true
    ((mem_order_iff.mp hv).2 u (arc_trim_iff.mpr ⟨ha, mem_vertices_of_mem_order_trim hv⟩))

theorem sources_trim (g : Digraph α) : g.trim.sources = g.sources := by
  rw [sources_eq_eraseDups, sources_eq_eraseDups]
  refine List.filter_congr fun v hv ↦ ?_
  have hv : v ∈ g.vertices := List.mem_eraseDups.mp hv
  rw [decide_eq_decide, inDegree_eq_zero_iff, inDegree_eq_zero_iff]
  simp only [arc_trim_iff, hv, and_true]

/-- **The order of the trimmed graph** is a part of the order. -/
theorem order_trim (g : Digraph α) : g.trim.order = g.order.filter fun v ↦ v ∈ g.trim.order := by
  have harcs : (g.trim.arcs.filter fun a ↦ decide (a.2 ∈ g.trim.order))
      = g.arcs.filter fun a ↦ decide (a.2 ∈ g.trim.order) := by
    rw [trim, List.filter_filter]
    refine List.filter_congr fun a _ ↦ ?_
    rw [Bool.and_eq_left_iff_imp, decide_eq_true_iff, decide_eq_true_iff]
    exact mem_vertices_of_mem_order_trim
  rw [← order_filter_eq g.closed_order_trim harcs (by rw [sources_trim])]
  exact (List.filter_eq_self.mpr fun v hv ↦ decide_eq_true hv).symm

theorem Reaches.of_trim (h : g.trim.Reaches u v) : g.Reaches u v :=
  h.imp_right (Relation.TransGen.mono (fun _ _ ha ↦ (arc_trim_iff.mp ha).1) _ _)

/-- **What is left of the order**: the ids that are reached from vertices alone. -/
theorem mem_order_trim_iff (hv : v ∈ g.order) :
    v ∈ g.trim.order ↔ ∀ u, g.Reaches u v → u ∈ g.vertices := by
  constructor
  · intro hmem u hu
    have hmem := g.closed_order_trim.of_reaches hu (decide_eq_true hmem)
    exact mem_vertices_of_mem_order_trim (of_decide_eq_true hmem)
  · intro hvertices
    rw [mem_order_iff_not_heldBack, not_heldBack_iff] at hv ⊢
    intro u hu
    refine ⟨fun hcycle ↦ (hv u hu.of_trim).1 ?_, entered_trim_iff.mpr (hvertices u hu.of_trim)⟩
    exact Relation.TransGen.mono (fun _ _ ha ↦ (arc_trim_iff.mp ha).1) _ _ hcycle

/-- Nothing is lost exactly if no arc leads from elsewhere to a vertex that has a place in the
order. -/
theorem forall_mem_order_trim_iff (g : Digraph α) :
    (∀ v ∈ g.order, v ∈ g.vertices → v ∈ g.trim.order) ↔
      ∀ u v, g.Arc u v → v ∈ g.order → v ∈ g.vertices → u ∈ g.vertices := by
  constructor
  · intro h u v ha hv hvertex
    exact (mem_order_trim_iff hv).mp (h v hv hvertex) u (Or.inr (.single ha))
  · intro h v hv hvertex
    have hclosed : g.Closed fun v ↦ v ∈ g.order ∧ v ∈ g.vertices := by
      intro u v ha hp
      obtain ⟨hv, hvertex⟩ := of_decide_eq_true hp
      exact decide_eq_true ⟨g.precedes_order.mem ha hv, h u v ha hv hvertex⟩
    refine (mem_order_trim_iff hv).mpr fun u hu ↦ ?_
    exact (of_decide_eq_true (hclosed.of_reaches hu (decide_eq_true ⟨hv, hvertex⟩))).2

end Digraph

end AgentFlow
