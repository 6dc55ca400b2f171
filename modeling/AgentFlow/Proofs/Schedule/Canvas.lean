import AgentFlow.Schedule.Canvas
import AgentFlow.Proofs.Canvas.Canister
import AgentFlow.Proofs.Digraph.Copy
import AgentFlow.Proofs.Schedule.Compile

/-!
# Compiling what was drawn

A drawing names step `i` by `step-i`, and numbers are read back from these names, so the graph of
the drawing is the graph of the connections on the places (`Schedule.digraph`) under other names
(`copies_canvas`), and the nodes of its order are those of the places in their order
(`order_canvas`). Which connections are drawn is a matter of its own: if there are none, the drawing
is a chain (`drawnConnections`).
-/

namespace AgentFlow

/-! ## Names of places -/

theorem stepId_injective : Function.Injective stepId := by
  intro i j h
  have hdigits : Nat.toDigits 10 i = Nat.toDigits 10 j := by
    rw [← Nat.toList_repr, ← Nat.toList_repr]
    exact congrArg String.toList ((String.append_right_inj "step-").mp h)
  rw [← Nat.ofDigitChars_ten_toDigits (n := i), hdigits, Nat.ofDigitChars_ten_toDigits]

/-- The id of the node for the step at a place, as a text. -/
def placeId (i : Nat) : Text := stepId i

theorem placeId_inj {i j : Nat} : placeId i = placeId j ↔ i = j :=
  Text.ofString_inj.trans stepId_injective.eq_iff

/-! ## Steps that can be compiled -/

/-- A node becomes a step only if its canister is not blank. -/
theorem Node.isBlankText_step {r : Restriction} {n : Node} (h : n.isEligible r) :
    isBlankText n.step.canisterId = false :=
  (canister?_eq_some_iff.mp (isEligible_iff.mp h).2.1).2

theorem Step.canister?_node {i : Nat} {step : Step} (h : isBlankText step.canisterId = false) :
    (step.node i).canister? = some step.canisterId :=
  Node.canister?_eq_some_iff.mpr ⟨rfl, h⟩

/-- The node of a step becomes a step again wherever its canister is admitted. -/
theorem Step.isEligible_node {r : Restriction} {i : Nat} {step : Step}
    (h : isBlankText step.canisterId = false) (hr : r.Admits step.canisterId) :
    (step.node i).isEligible r :=
  Node.isEligible_iff.mpr ⟨rfl, canister?_node h, hr⟩

/-! ## Steps that can be described -/

theorem Step.hasLongCount_iff {step : Step} :
    step.hasLongCount ↔ ∃ loop, step.loopConfig = some (.repeated loop) ∧
      Json.longInteger ≤ loop.count.natAbs := by
  have hloop : ∀ loop : Loop, loop.hasLongCount ↔
      ∃ r, loop = .repeated r ∧ Json.longInteger ≤ r.count.natAbs := by
    intro loop
    cases loop with
    | repeated r => simp [Loop.hasLongCount]
    | forEach _ | whileHolds _ | once => simp [Loop.hasLongCount]
  rw [hasLongCount, Option.any_eq_true]
  constructor
  · rintro ⟨loop, hmem, hlong⟩
    obtain ⟨r, rfl, hr⟩ := (hloop loop).mp hlong
    exact ⟨r, hmem, hr⟩
  · rintro ⟨r, hmem, hr⟩
    exact ⟨_, hmem, (hloop _).mpr ⟨r, rfl, hr⟩⟩

namespace Schedule

/-! ## What is drawn -/

/-- The connections that a drawing shows. -/
def drawnConnections (s : Schedule) : List Connection :=
  if s.connections.isEmpty then
    (List.range (s.steps.length - 1)).map fun i ↦ ⟨i, i + 1, .alwaysTrue⟩
  else s.connections.filter (Connection.inRange s.steps.length)

theorem drawnConnections_of_nil {s : Schedule} (hnil : s.connections = []) :
    s.drawnConnections
      = (List.range (s.steps.length - 1)).map fun i ↦ ⟨i, i + 1, .alwaysTrue⟩ := by
  rw [drawnConnections, hnil, List.isEmpty_nil, if_pos rfl]

/-- An edge shows a connection. -/
structure Shows (e : Edge) (c : Connection) : Prop where
  source : e.source = placeId c.source
  target : e.target = placeId c.target
  condition : e.condition = c.condition

theorem forall₂_drawnEdges (s : Schedule) :
    List.Forall₂ Shows s.drawnEdges s.drawnConnections := by
  by_cases h : s.connections.isEmpty
  · rw [drawnEdges, drawnConnections, if_pos h, if_pos h, List.forall₂_map_left_iff,
      List.forall₂_map_right_iff, List.forall₂_same]
    exact fun i _ ↦ ⟨rfl, rfl, rfl⟩
  · have hfilter : s.connections.filter (Connection.inRange s.steps.length)
        = (s.connections.zipIdx.filter fun p ↦ p.1.inRange s.steps.length).map Prod.fst := by
      rw [← Function.comp_def, ← List.filter_map, List.zipIdx_map_fst]
    rw [drawnEdges, drawnConnections, if_neg h, if_neg h, hfilter, List.forall₂_map_left_iff,
      List.forall₂_map_right_iff, List.forall₂_same]
    exact fun p _ ↦ ⟨rfl, rfl, rfl⟩

/-- What is the same for edges and the connections they show is the same for the drawing. -/
theorem map_drawnEdges {α : Type} {f : Edge → α} {f' : Connection → α} (s : Schedule)
    (h : ∀ e c, Shows e c → f e = f' c) : s.drawnEdges.map f = s.drawnConnections.map f' := by
  rw [← List.forall₂_eq_eq_eq, List.forall₂_map_left_iff, List.forall₂_map_right_iff]
  exact s.forall₂_drawnEdges.imp h

theorem exists_shows_of_mem {s : Schedule} {e : Edge} (he : e ∈ s.drawnEdges) :
    ∃ c ∈ s.drawnConnections, Shows e c := by
  obtain ⟨hlength, hget⟩ := List.forall₂_iff_get.mp s.forall₂_drawnEdges
  obtain ⟨i, hi, rfl⟩ := List.mem_iff_getElem.mp he
  exact ⟨_, List.getElem_mem (hlength ▸ hi), hget i hi (hlength ▸ hi)⟩

theorem drawnNodes_map_id (s : Schedule) :
    s.drawnNodes.map Node.id = (List.range s.steps.length).map placeId := by
  refine List.ext_getElem (by simp [drawnNodes]) fun i hi hi' ↦ ?_
  simp [drawnNodes, Step.node, placeId]

theorem nodup_drawnNodes_map_id (s : Schedule) : (s.drawnNodes.map Node.id).Nodup := by
  rw [drawnNodes_map_id]
  exact List.nodup_range.map fun _ _ hij ↦ placeId_inj.mp hij

theorem lastNode?_drawnNodes (s : Schedule) (i : Nat) :
    lastNode? s.drawnNodes (placeId i) = s.steps[i]?.map (Step.node i) := by
  ext n
  rw [lastNode?_eq_some_iff, isLast_iff_mem s.nodup_drawnNodes_map_id, drawnNodes,
    List.mem_mapIdx, Option.map_eq_some_iff]
  constructor
  · rintro ⟨hid, j, hj, rfl⟩
    obtain rfl : j = i := placeId_inj.mp hid
    exact ⟨s.steps[j], List.getElem?_eq_getElem hj, rfl⟩
  · rintro ⟨step, hstep, rfl⟩
    obtain ⟨hi, rfl⟩ := List.getElem?_eq_some_iff.mp hstep
    exact ⟨rfl, i, hi, rfl⟩

/-! ## What is built -/

/-- **A drawing is built** exactly if each step can be described, what it calls can be copied, and so
can the conditions of the connections between steps. -/
theorem buildFault?_eq_none_iff {s : Schedule} :
    s.buildFault? = none ↔
      (∀ step ∈ s.steps, step.hasLongCount = false ∧ step.isCopied) ∧
        ∀ c ∈ s.connections, c.inRange s.steps.length → c.condition.isCopied := by
  have hnode : ∀ step : Step,
      step.nodeFault? = none ↔ step.hasLongCount = false ∧ step.isCopied := by
    intro step
    rw [Step.nodeFault?]
    cases step.hasLongCount <;> simp [copyFault?_eq_none_iff]
  have hedge : ∀ c : Connection,
      s.drawsCondition c ↔ (c.inRange s.steps.length → c.condition.isCopied) := by
    intro c
    rw [drawsCondition]
    cases c.inRange s.steps.length <;> simp
  rw [buildFault?, nodesFault?, Option.or_eq_none_iff, List.findSome?_eq_none_iff,
    copyFault?_eq_none_iff, List.all_eq_true]
  exact and_congr (forall₂_congr fun step _ ↦ hnode step) (forall₂_congr fun c _ ↦ hedge c)

/-! ## The graph of the places -/

/-- The graph of the drawn connections on the places of the steps. -/
def digraph (s : Schedule) : Digraph Nat :=
  ⟨List.range s.steps.length, s.drawnConnections.map fun c ↦ (c.source, c.target)⟩

theorem copies_canvas (s : Schedule) :
    s.digraph.Copies (fun _ ↦ true) placeId s.canvas.digraph where
  closed _ _ := rfl
  inj _ _ := placeId_inj.mp
  arcs_eq := by
    rw [List.filter_true, digraph, List.map_map]
    exact s.map_drawnEdges fun e c h ↦ Prod.ext h.source h.target

theorem order_canvas_digraph (s : Schedule) :
    s.canvas.digraph.order = s.digraph.order.map placeId :=
  s.copies_canvas.order_eq_map List.nodup_range s.drawnNodes_map_id

theorem order_canvas (s : Schedule) :
    s.canvas.order = s.digraph.order.filterMap fun i ↦ s.steps[i]?.map (Step.node i) := by
  rw [Graph.order, order_canvas_digraph, List.filterMap_map]
  exact List.filterMap_congr fun i _ ↦ s.lastNode?_drawnNodes i

end Schedule

end AgentFlow
