import AgentFlow.Proofs.Schedule.Renumbering

/-!
# Drawing and compiling again

A schedule that was compiled is `WellFormed`: all its steps can be compiled again, all its
connections go forward, and their conditions are in normal form. So its connections have no cycle
and nothing of it is lost (`WellFormed.redrawable`): drawing and compiling again takes the steps in
the order of their places (`WellFormed.redrawn_steps`), gives the drawn connections the new places
(`WellFormed.redrawn_connections`), and changes nothing else.

So a schedule comes back as it was if it shows its connections and its places are in order, and only
then (`WellFormed.redrawn_eq_self_iff`). After one round trip both hold, the second one because the
order of a graph whose vertices are the places of an order is the order of the numbers
(`Digraph.Copies.order_eq_range`): later round trips change nothing.
-/

namespace AgentFlow

private theorem filterMap_getElem?_range {α : Type} (l : List α) :
    (List.range l.length).filterMap (l[·]?) = l := by
  induction l with
  | nil => rfl
  | cons a l ih =>
    rw [List.length_cons, List.range_succ_eq_map, List.filterMap_cons, List.filterMap_map]
    exact congrArg (a :: ·) ih

private theorem idxOf_range {n i : Nat} (hi : i < n) : (List.range n).idxOf i = i := by
  have hget := List.nodup_range.idxOf_getElem i (hi.trans_eq List.length_range.symm)
  rwa [List.getElem_range] at hget

/-! ## Well-formed schedules -/

/-- What compiling guarantees of a schedule. -/
structure Schedule.WellFormed (s : Schedule) : Prop where
  /-- The canisters of steps are not blank. -/
  canister : ∀ step ∈ s.steps, isBlankText step.canisterId = false
  /-- Connections go forward. -/
  forward : ∀ c ∈ s.connections, c.source < c.target ∧ c.target < s.steps.length
  /-- Conditions are in normal form. -/
  normalized : ∀ c ∈ s.connections, c.condition.normalized = c.condition

theorem Graph.wellFormed_compile (r : Restriction) (g : Graph) : (g.compile r).WellFormed where
  canister := by
    intro step hstep
    obtain ⟨n, hn, rfl⟩ := List.mem_map.mp hstep
    exact Node.isBlankText_step (mem_compiledNodes.mp hn).2.2
  forward _ hc := connection_forward hc
  normalized := by
    intro c hc
    obtain ⟨e, -, -, -, hcond⟩ := exists_edge_of_mem_connections hc
    rw [hcond, Condition.normalized_normalized]

namespace Schedule

variable {s : Schedule}

namespace WellFormed

/-! ## Drawn connections -/

theorem drawnConnections_eq (h : s.WellFormed) (hne : s.connections ≠ []) :
    s.drawnConnections = s.connections := by
  rw [drawnConnections_of_ne_nil hne, List.filter_eq_self]
  intro c hc
  obtain ⟨hst, htn⟩ := h.forward c hc
  rw [Connection.inRange, Bool.and_eq_true, decide_eq_true_iff, decide_eq_true_iff]
  exact ⟨hst.trans htn, htn⟩

/-- The drawing shows the connections unless there are two steps or more and no connection. -/
theorem drawnConnections_eq_self_iff (h : s.WellFormed) :
    s.drawnConnections = s.connections ↔ s.connections ≠ [] ∨ s.steps.length ≤ 1 := by
  by_cases hne : s.connections = []
  · rw [drawnConnections_of_nil hne, hne]
    simp [Nat.sub_eq_zero_iff_le]
  · exact iff_of_true (h.drawnConnections_eq hne) (.inl hne)

theorem drawn_forward (h : s.WellFormed) {c : Connection} (hc : c ∈ s.drawnConnections) :
    c.source < c.target := by
  by_cases hne : s.connections = []
  · rw [drawnConnections_of_nil hne] at hc
    obtain ⟨i, -, rfl⟩ := List.mem_map.mp hc
    exact Nat.lt_succ_self i
  · exact (h.forward c (h.drawnConnections_eq hne ▸ hc)).1

theorem drawn_normalized (h : s.WellFormed) {c : Connection} (hc : c ∈ s.drawnConnections) :
    c.condition.normalized = c.condition := by
  by_cases hne : s.connections = []
  · rw [drawnConnections_of_nil hne] at hc
    obtain ⟨i, -, rfl⟩ := List.mem_map.mp hc
    rfl
  · exact h.normalized c (h.drawnConnections_eq hne ▸ hc)

/-! ## The order of the places -/

theorem lt_of_leads (h : s.WellFormed) {i j : Nat} (hij : s.digraph.Leads i j) : i < j := by
  refine hij.lt_of_forward id fun i j ha ↦ ?_
  obtain ⟨c, hc, rfl, rfl⟩ := arc_iff.mp ha
  exact h.drawn_forward hc

/-- Since connections go forward, they have no cycle. -/
theorem redrawable (h : s.WellFormed) : s.Redrawable where
  canister := h.canister
  acyclic _ hcycle := (h.lt_of_leads hcycle).false

theorem perm_order (h : s.WellFormed) : s.digraph.order.Perm (List.range s.steps.length) :=
  h.redrawable.perm_order

/-- A chain is in order. -/
theorem order_eq_range_of_nil (h : s.WellFormed) (hnil : s.connections = []) :
    s.digraph.order = List.range s.steps.length := by
  -- by induction on the distance: places further apart are joined through those between
  have hleads : ∀ d i, i + d + 1 < s.steps.length → s.digraph.Leads i (i + d + 1) := by
    intro d
    have harc : ∀ i, i + 1 < s.steps.length → s.digraph.Arc i (i + 1) := by
      intro i hi
      rw [arc_iff, drawnConnections_of_nil hnil]
      exact ⟨_, List.mem_map_of_mem (List.mem_range.mpr (by omega)), rfl, rfl⟩
    induction d with
    | zero => exact fun i hi ↦ .single (harc i hi)
    | succ d ih => exact fun i hi ↦ .tail (ih i (by omega)) (harc _ hi)
  refine List.Perm.eq_of_pairwise' ?_ List.pairwise_le_range h.perm_order
  refine s.digraph.pairwise_order.imp_of_mem fun {i j} hi hj hji ↦ ?_
  rw [h.redrawable.mem_order_iff] at hi hj
  by_contra hlt
  obtain ⟨d, rfl⟩ := Nat.exists_eq_add_of_lt (Nat.lt_of_not_le hlt)
  exact hji (hleads d j hi)

/-! ## One round trip -/

theorem redrawn_steps (h : s.WellFormed) :
    s.redrawn.steps = s.digraph.order.filterMap (s.steps[·]?) :=
  h.redrawable.redrawn_steps

theorem perm_redrawn_steps (h : s.WellFormed) : s.redrawn.steps.Perm s.steps := by
  have hperm := h.perm_order.filterMap (s.steps[·]?)
  rwa [← h.redrawn_steps, filterMap_getElem?_range] at hperm

theorem redrawn_steps_of_order (h : s.WellFormed)
    (horder : s.digraph.order = List.range s.steps.length) : s.redrawn.steps = s.steps := by
  rw [h.redrawn_steps, horder, filterMap_getElem?_range]

theorem redrawn_connections (h : s.WellFormed) :
    s.redrawn.connections = s.drawnConnections.map fun c ↦
      ⟨s.digraph.order.idxOf c.source, s.digraph.order.idxOf c.target, c.condition⟩ := by
  rw [h.redrawable.redrawn_connections]
  refine List.map_congr_left fun c hc ↦ ?_
  rw [h.drawn_normalized hc]

theorem redrawn_connections_of_nil (h : s.WellFormed) (hnil : s.connections = []) :
    s.redrawn.connections
      = (List.range (s.steps.length - 1)).map fun i ↦ ⟨i, i + 1, .alwaysTrue⟩ := by
  rw [h.redrawn_connections, h.order_eq_range_of_nil hnil, drawnConnections_of_nil hnil,
    List.map_map]
  refine List.map_congr_left fun i hi ↦ ?_
  have hlt : i + 1 < s.steps.length := Nat.add_lt_of_lt_sub (List.mem_range.mp hi)
  rw [Function.comp_apply, idxOf_range (Nat.lt_of_succ_lt hlt), idxOf_range hlt]

/-! ## The second round trip -/

/-- After a round trip, the drawing shows the connections as they are. -/
theorem drawnConnections_redrawn (h : s.WellFormed) :
    s.redrawn.drawnConnections = s.redrawn.connections := by
  have h' : s.redrawn.WellFormed := Graph.wellFormed_compile _ _
  rw [h'.drawnConnections_eq_self_iff, h.redrawable.length_redrawn_steps]
  by_cases hnil : s.drawnConnections = []
  · -- two steps or more would have been drawn as a chain
    refine .inr (Nat.le_of_not_lt fun hlt ↦ ?_)
    have hconnections : s.connections = [] := by
      by_contra hne
      exact hne (h.drawnConnections_eq hne ▸ hnil)
    rw [drawnConnections_of_nil hconnections, List.map_eq_nil_iff, List.range_eq_nil] at hnil
    omega
  · rw [h.redrawn_connections]
    exact .inl fun hmap ↦ hnil (List.map_eq_nil_iff.mp hmap)

theorem copies_redrawn (h : s.WellFormed) :
    s.digraph.Copies (fun i ↦ i ∈ s.digraph.order) s.digraph.order.idxOf s.redrawn.digraph where
  closed := by
    intro i j hij _
    exact decide_eq_true (h.redrawable.mem_order_iff.mpr (lt_of_arc hij).1)
  inj hi _ hij := (List.idxOf_inj (of_decide_eq_true hi)).mp hij
  arcs_eq := by
    rw [List.filter_eq_self.mpr, digraph, h.drawnConnections_redrawn, h.redrawn_connections,
      List.map_map, digraph, List.map_map]
    · rfl
    · intro a ha
      obtain ⟨c, hc, rfl⟩ := List.mem_map.mp ha
      exact decide_eq_true (h.redrawable.mem_order_iff.mpr (inRange_of_mem_drawnConnections hc).2)

/-- After a round trip, the places are in order. -/
theorem order_redrawn (h : s.WellFormed) :
    s.redrawn.digraph.order = List.range s.redrawn.steps.length := by
  have hlength : s.digraph.order.length = s.redrawn.steps.length := by
    rw [h.redrawable.length_order, h.redrawable.length_redrawn_steps]
  rw [← hlength]
  refine h.copies_redrawn.order_eq_range (fun i ↦ decide_eq_true_iff) (List.Sublist.refl _)
    (Digraph.map_idxOf_eq_range s.digraph.nodup_order) ?_
  rw [hlength]
  rfl

/-- **What comes back as it was.** -/
theorem redrawn_eq_self_iff (h : s.WellFormed) :
    s.redrawn = s ↔
      (s.connections ≠ [] ∨ s.steps.length ≤ 1) ∧ s.digraph.order = List.range s.steps.length := by
  rw [← h.drawnConnections_eq_self_iff]
  constructor
  · intro heq
    have hdrawn := h.drawnConnections_redrawn
    have horder := h.order_redrawn
    rw [heq] at hdrawn horder
    exact ⟨hdrawn, horder⟩
  · rintro ⟨hdrawn, horder⟩
    have hsteps : s.redrawn.steps = s.steps := h.redrawn_steps_of_order horder
    have hconnections : s.redrawn.connections = s.connections := by
      rw [h.redrawn_connections, hdrawn]
      refine (List.map_congr_left fun c hc ↦ ?_).trans (List.map_id _)
      obtain ⟨hst, htn⟩ := h.forward c hc
      rw [horder, idxOf_range (hst.trans htn), idxOf_range htn]
      rfl
    exact congrArg₂ Schedule.mk hsteps hconnections

theorem redrawn_redrawn (h : s.WellFormed) : s.redrawn.redrawn = s.redrawn := by
  have h' : s.redrawn.WellFormed := Graph.wellFormed_compile _ _
  rw [h'.redrawn_eq_self_iff, ← h'.drawnConnections_eq_self_iff]
  exact ⟨h.drawnConnections_redrawn, h.order_redrawn⟩

end WellFormed

end Schedule

end AgentFlow
