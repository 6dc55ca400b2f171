import AgentFlow.Proofs.Schedule.Canvas
import Mathlib.Data.Set.Function

/-!
# Schedules that come back renumbered

Drawing a schedule and compiling the drawing (`redrawn`) loses a step in two ways only: its canister
is blank, or the drawn connections hold it back. A schedule where neither happens is `Redrawable`.
Drawn connections join places of steps, so every place is entered, and what could hold one back is a
cycle of drawn connections and nothing else.

All places of such a schedule are in its order (`Redrawable.perm_order`), so the order renumbers
them: the step at place `i` comes to stand at the place that `i` has in the order, and connections
follow their ends (`exists_renumbering`). How the connections are numbered plays no part in this;
they may go backward. Connections that name a step that does not exist are not drawn, and that is
all that is lost.

This tells what comes back, where anything does. Whether the drawing is built is told by the steps
and connections alone (`buildFault?_eq_none_iff`), and if it is, the compiled drawing is handed out
too (`copiedFault?_redrawn`).
-/

namespace AgentFlow

private theorem idxOf_map {α β : Type} [BEq α] [LawfulBEq α] [BEq β] [LawfulBEq β] {f : α → β}
    (hf : ∀ a b, f a = f b → a = b) (l : List α) (a : α) : (l.map f).idxOf (f a) = l.idxOf a := by
  induction l with
  | nil => rfl
  | cons b l ih =>
    have hbeq : (f b == f a) = (b == a) := by
      rw [Bool.eq_iff_iff, beq_iff_eq, beq_iff_eq]
      exact ⟨hf b a, congrArg f⟩
    rw [List.map_cons, List.idxOf_cons, List.idxOf_cons, hbeq, ih]

/-- Where nothing is dropped, the places stay. -/
private theorem getElem?_filterMap_of_isSome {α β : Type} {f : α → Option β} {l : List α}
    (h : ∀ a ∈ l, (f a).isSome) (i : Nat) : (l.filterMap f)[i]? = l[i]?.bind f := by
  induction l generalizing i with
  | nil => rfl
  | cons a l ih =>
    obtain ⟨b, hb⟩ := Option.isSome_iff_exists.mp (h a List.mem_cons_self)
    rw [List.filterMap_cons_some hb]
    cases i with
    | zero => exact hb.symm
    | succ i => exact ih (fun x hx ↦ h x (List.mem_cons_of_mem a hx)) i

namespace Schedule

variable {s : Schedule}

/-! ## The graph of the drawn connections -/

theorem inRange_of_mem_drawnConnections {c : Connection} (hc : c ∈ s.drawnConnections) :
    c.source < s.steps.length ∧ c.target < s.steps.length := by
  rw [drawnConnections] at hc
  split at hc
  · obtain ⟨i, hi, rfl⟩ := List.mem_map.mp hc
    have hlt : i + 1 < s.steps.length := Nat.add_lt_of_lt_sub (List.mem_range.mp hi)
    exact ⟨Nat.lt_of_succ_lt hlt, hlt⟩
  · simpa [Connection.inRange] using (List.mem_filter.mp hc).2

theorem arc_iff {i j : Nat} :
    s.digraph.Arc i j ↔ ∃ c ∈ s.drawnConnections, c.source = i ∧ c.target = j := by
  simp [Digraph.Arc, digraph]

theorem lt_of_arc {i j : Nat} (hij : s.digraph.Arc i j) :
    i < s.steps.length ∧ j < s.steps.length := by
  obtain ⟨c, hc, rfl, rfl⟩ := arc_iff.mp hij
  exact inRange_of_mem_drawnConnections hc

/-- Only places of steps are entered. -/
theorem entered_iff {i : Nat} : s.digraph.Entered i ↔ i < s.steps.length := by
  constructor
  · rintro (hi | ⟨j, hji⟩)
    · exact List.mem_range.mp hi
    · exact (lt_of_arc hji).2
  · exact fun hi ↦ .inl (List.mem_range.mpr hi)

/-- Only places of steps lead anywhere. -/
theorem lt_of_reaches {i j : Nat} (hij : s.digraph.Reaches i j) (hj : j < s.steps.length) :
    i < s.steps.length := by
  rcases hij with rfl | hij
  · exact hj
  · obtain ⟨k, hik, -⟩ := Relation.TransGen.head'_iff.mp hij
    exact (lt_of_arc hik).1

/-! ## Schedules without cycles -/

/-- Nothing of a schedule is lost when it is drawn and compiled again. -/
structure Redrawable (s : Schedule) : Prop where
  /-- The canisters of steps are not blank. -/
  canister : ∀ step ∈ s.steps, isBlankText step.canisterId = false
  /-- The drawn connections have no cycle. -/
  acyclic : ∀ i, ¬s.digraph.OnCycle i

/-- The schedule after one round trip: it is drawn, and the drawing is compiled again. -/
def redrawn (s : Schedule) : Schedule := s.canvas.compile .none

/-- A round trip adds no step. -/
theorem mem_of_mem_redrawn_steps {step : Step} (h : step ∈ s.redrawn.steps) : step ∈ s.steps := by
  obtain ⟨n, hn, rfl⟩ := List.mem_map.mp h
  obtain ⟨i, hi, rfl⟩ := List.mem_mapIdx.mp (Graph.mem_compiledNodes.mp hn).2.1.mem
  exact List.getElem_mem hi

/-- What was built can be compiled again: its steps have been copied before. -/
theorem copiedFault?_redrawn (h : s.buildFault? = none) : s.redrawn.copiedFault? = none := by
  rw [copiedFault?, copyFault?_eq_none_iff, List.all_eq_true]
  intro step hstep
  exact ((buildFault?_eq_none_iff.mp h).1 step (mem_of_mem_redrawn_steps hstep)).2

namespace Redrawable

/-- Without a cycle, no place is held back. -/
theorem mem_order_iff (h : s.Redrawable) {i : Nat} :
    i ∈ s.digraph.order ↔ i < s.steps.length := by
  rw [Digraph.mem_order_iff_not_heldBack]
  constructor
  · exact fun hi ↦ entered_iff.mp (Digraph.entered_of_not_heldBack hi)
  · intro hi
    rw [Digraph.not_heldBack_iff]
    exact fun j hji ↦ ⟨h.acyclic j, entered_iff.mpr (lt_of_reaches hji hi)⟩

theorem perm_order (h : s.Redrawable) : s.digraph.order.Perm (List.range s.steps.length) := by
  rw [List.perm_ext_iff_of_nodup s.digraph.nodup_order List.nodup_range]
  intro i
  rw [h.mem_order_iff, List.mem_range]

theorem length_order (h : s.Redrawable) : s.digraph.order.length = s.steps.length := by
  rw [h.perm_order.length_eq, List.length_range]

/-- The places in the order are a numbering of the steps. -/
theorem bijOn_idxOf_order (h : s.Redrawable) :
    Set.BijOn s.digraph.order.idxOf (Set.Iio s.steps.length) (Set.Iio s.steps.length) := by
  refine ⟨fun i hi ↦ ?_, fun i hi j _ hij ↦ ?_, fun k hk ↦ ?_⟩
  · exact (List.idxOf_lt_length_iff.mpr (h.mem_order_iff.mpr hi)).trans_eq h.length_order
  · exact (List.idxOf_inj (h.mem_order_iff.mpr hi)).mp hij
  · have hlt : k < s.digraph.order.length := h.length_order ▸ hk
    exact ⟨s.digraph.order[k], h.mem_order_iff.mp (List.getElem_mem hlt),
      s.digraph.nodup_order.idxOf_getElem k hlt⟩

/-! ## One round trip -/

/-- A restriction that admits the canisters of all steps bars nothing of the drawing. -/
theorem compiledNodes_canvas_of_admits (h : s.Redrawable) {r : Restriction}
    (hr : ∀ step ∈ s.steps, r.Admits step.canisterId) :
    s.canvas.compiledNodes r = s.canvas.order := by
  rw [Graph.compiledNodes, eligibleNodes, List.filter_eq_self, order_canvas]
  intro n hn
  obtain ⟨i, -, hi⟩ := List.mem_filterMap.mp hn
  obtain ⟨step, hget, rfl⟩ := Option.map_eq_some_iff.mp hi
  have hstep : step ∈ s.steps := List.mem_of_getElem? hget
  exact Step.isEligible_node (h.canister step hstep) (hr step hstep)

theorem compiledNodes_canvas (h : s.Redrawable) :
    s.canvas.compiledNodes .none = s.canvas.order :=
  h.compiledNodes_canvas_of_admits fun _ _ ↦ Restriction.none_admits _

theorem compile_canvas_of_admits (h : s.Redrawable) {r : Restriction}
    (hr : ∀ step ∈ s.steps, r.Admits step.canisterId) : s.canvas.compile r = s.redrawn := by
  rw [redrawn, Graph.compile, Graph.compile, Graph.steps, Graph.steps, Graph.connections,
    Graph.connections, h.compiledNodes_canvas_of_admits hr, h.compiledNodes_canvas]

theorem compiledIds_canvas (h : s.Redrawable) :
    s.canvas.compiledIds .none = s.digraph.order.map placeId := by
  rw [Graph.compiledIds, h.compiledNodes_canvas, Graph.order_map_id, order_canvas_digraph,
    List.filter_eq_self, canvas, drawnNodes_map_id]
  intro v hv
  obtain ⟨i, hi, rfl⟩ := List.mem_map.mp hv
  exact decide_eq_true (List.mem_map_of_mem (List.mem_range.mpr (h.mem_order_iff.mp hi)))

theorem length_redrawn_steps (h : s.Redrawable) :
    s.redrawn.steps.length = s.steps.length := by
  rw [redrawn, ← Graph.length_compiledIds, h.compiledIds_canvas, List.length_map, h.length_order]

theorem redrawn_steps (h : s.Redrawable) :
    s.redrawn.steps = s.digraph.order.filterMap (s.steps[·]?) := by
  rw [redrawn, Graph.compile, Graph.steps, h.compiledNodes_canvas, order_canvas,
    List.map_filterMap]
  refine List.filterMap_congr fun i _ ↦ ?_
  rw [Option.map_map]
  exact Option.map_id_apply

theorem redrawn_connections (h : s.Redrawable) :
    s.redrawn.connections = s.drawnConnections.map fun c ↦
      ⟨s.digraph.order.idxOf c.source, s.digraph.order.idxOf c.target, c.condition.normalized⟩ := by
  have hids := h.compiledIds_canvas
  have hmem : ∀ i < s.steps.length, placeId i ∈ s.canvas.compiledIds .none := by
    intro i hi
    rw [hids]
    exact List.mem_map_of_mem (h.mem_order_iff.mpr hi)
  have hplace : ∀ i, (s.canvas.compiledIds .none).idxOf (placeId i) = s.digraph.order.idxOf i := by
    intro i
    rw [hids]
    exact idxOf_map (fun _ _ ↦ placeId_inj.mp) _ i
  have hwithin : ∀ e ∈ s.canvas.edges, e.within (s.canvas.compiledIds .none) := by
    intro e he
    obtain ⟨c, hc, hshows⟩ := exists_shows_of_mem he
    obtain ⟨hs, ht⟩ := inRange_of_mem_drawnConnections hc
    rw [Edge.within_iff, hshows.source, hshows.target]
    exact ⟨hmem _ hs, hmem _ ht⟩
  calc
    s.redrawn.connections = s.drawnEdges.map (Edge.placed (s.canvas.compiledIds .none)) := by
      rw [redrawn, Graph.compile, Graph.connections_eq, List.filter_eq_self.mpr hwithin]
      rfl
    _ = s.drawnConnections.map fun c ↦
        ⟨s.digraph.order.idxOf c.source, s.digraph.order.idxOf c.target,
          c.condition.normalized⟩ := by
      refine s.map_drawnEdges fun e c hshows ↦ ?_
      rw [Edge.placed, hshows.source, hshows.target, hshows.condition, hplace, hplace]

/-- The step at a place comes to stand at the place that this one has in the order. -/
theorem getElem?_redrawn_steps (h : s.Redrawable) {i : Nat} (hi : i < s.steps.length) :
    s.redrawn.steps[s.digraph.order.idxOf i]? = s.steps[i]? := by
  have hsome : ∀ j ∈ s.digraph.order, (s.steps[j]?).isSome := fun j hj ↦ by
    rw [List.getElem?_eq_getElem (h.mem_order_iff.mp hj), Option.isSome_some]
  rw [h.redrawn_steps, getElem?_filterMap_of_isSome hsome,
    List.getElem?_idxOf (h.mem_order_iff.mpr hi)]
  rfl

end Redrawable

/-! ## Connections that go anywhere -/

/-- A connection leads from the step at one place to that at another. -/
def Joins (s : Schedule) (i j : Nat) : Prop :=
  ∃ c ∈ s.connections, c.inRange s.steps.length ∧ c.source = i ∧ c.target = j

theorem drawnConnections_of_ne_nil (hne : s.connections ≠ []) :
    s.drawnConnections = s.connections.filter (Connection.inRange s.steps.length) := by
  rw [drawnConnections, if_neg (by simpa using hne)]

theorem arc_iff_joins (hne : s.connections ≠ []) {i j : Nat} :
    s.digraph.Arc i j ↔ s.Joins i j := by
  simp only [arc_iff, drawnConnections_of_ne_nil hne, List.mem_filter, Joins, and_assoc]

theorem redrawable_of_joins (hcanister : ∀ step ∈ s.steps, isBlankText step.canisterId = false)
    (hne : s.connections ≠ []) (hacyclic : ∀ i, ¬Relation.TransGen s.Joins i i) :
    s.Redrawable where
  canister := hcanister
  acyclic i hi := hacyclic i (hi.lift id fun _ _ ↦ (arc_iff_joins hne).mp)

/-- **A schedule comes back renumbered.** Let the canisters of all steps be named, let there be a
connection, and let those between steps have no cycle. Then there is a numbering of the places by
which every step is found again, and the connections are those between steps, in order, with both
ends renumbered and the condition in normal form. -/
theorem exists_renumbering (s : Schedule)
    (hcanister : ∀ step ∈ s.steps, isBlankText step.canisterId = false)
    (hne : s.connections ≠ []) (hacyclic : ∀ i, ¬Relation.TransGen s.Joins i i) :
    s.redrawn.steps.length = s.steps.length ∧
      ∃ p : Nat → Nat, Set.BijOn p (Set.Iio s.steps.length) (Set.Iio s.steps.length) ∧
        (∀ i < s.steps.length, s.redrawn.steps[p i]? = s.steps[i]?) ∧
        s.redrawn.connections = (s.connections.filter (Connection.inRange s.steps.length)).map
          fun c ↦ ⟨p c.source, p c.target, c.condition.normalized⟩ := by
  have h : s.Redrawable := redrawable_of_joins hcanister hne hacyclic
  refine ⟨h.length_redrawn_steps, s.digraph.order.idxOf, h.bijOn_idxOf_order,
    fun i hi ↦ h.getElem?_redrawn_steps hi, ?_⟩
  rw [h.redrawn_connections, drawnConnections_of_ne_nil hne]

/-- Three steps in a row that is numbered from behind, with a condition of two keys and a connection
to a step that does not exist. -/
def reversed : Schedule where
  steps := ["x", "y", "z"].map fun canister ↦ (Node.plain "" canister).step
  connections :=
    [⟨1, 0, .alwaysTrue⟩, ⟨2, 3, .alwaysTrue⟩,
      ⟨2, 1, { Condition.alwaysTrue with onFailure := some .null }⟩]

theorem length_redrawn_reversed :
    reversed.redrawn.steps.length = 3 ∧
      ∃ p : Nat → Nat, Set.BijOn p (Set.Iio 3) (Set.Iio 3) ∧
        (∀ i < 3, reversed.redrawn.steps[p i]? = reversed.steps[i]?) ∧
        reversed.redrawn.connections = [⟨p 1, p 0, .alwaysTrue⟩,
          ⟨p 2, p 1, Branch.condition .onFailure⟩] := by
  have hback : ∀ i j, reversed.Joins i j → j < i := by
    rintro i j ⟨c, hc, hrange, rfl, rfl⟩
    revert c
    decide
  refine exists_renumbering reversed (by decide) (by decide) fun i hi ↦ ?_
  suffices h : ∀ j, Relation.TransGen reversed.Joins i j → j < i from (h i hi).false
  intro j hj
  induction hj with
  | single hij => exact hback _ _ hij
  | tail _ hjk ih => exact (hback _ _ hjk).trans ih

end Schedule

end AgentFlow
