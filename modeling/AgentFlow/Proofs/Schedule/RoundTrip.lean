import AgentFlow.Proofs.Schedule.Redrawing

/-!
# Round trips of a canvas

Compiling a canvas gives a schedule, and `Schedule.redrawn` draws it and compiles the drawing. What
is known of well-formed schedules is said here of canvases, where one more question comes up: when
are the places of a compiled canvas in order already? They are if no edge enters a compiled id from
an id that is not compiled (`order_compile`), since the schedule is then a part of the canvas that
holds the sources of its arcs.

Where such an edge exists, the id that it enters may wait longer on the canvas than in the schedule,
where another step then takes its place. And the drawing of steps without connections is a chain. In
these two ways a round trip changes a schedule, and in no other. When it comes to an end at all is
told apart (`buildFault?_compile`).
-/

namespace AgentFlow

namespace Graph

variable {r : Restriction} {g : Graph}

/-! ## The places of a compiled canvas -/

theorem copies_compile
    (hclosed : ∀ e ∈ g.edges, e.target ∈ g.compiledIds r → e.source ∈ g.compiledIds r)
    (hdrawn : (g.compile r).drawnConnections = (g.compile r).connections) :
    g.digraph.Copies (fun v ↦ v ∈ g.compiledIds r) (g.compiledIds r).idxOf
      (g.compile r).digraph where
  closed := by
    intro u v huv hv
    obtain ⟨e, he, rfl, rfl⟩ := arc_iff.mp huv
    exact decide_eq_true (hclosed e he (of_decide_eq_true hv))
  inj hu _ huv := (List.idxOf_inj (of_decide_eq_true hu)).mp huv
  arcs_eq := by
    rw [Schedule.digraph, hdrawn, compile, connections_eq, List.map_map, digraph, List.filter_map,
      List.map_map]
    refine congrArg (List.map _) (List.filter_congr fun e he ↦ ?_)
    rw [Function.comp_apply, Bool.eq_iff_iff, Edge.within_iff, decide_eq_true_iff]
    exact ⟨And.right, fun ht ↦ ⟨hclosed e he ht, ht⟩⟩

/-- The places of a schedule are in order if nothing that is not compiled decides when a compiled id
joins. -/
theorem order_compile
    (hclosed : ∀ e ∈ g.edges, e.target ∈ g.compiledIds r → e.source ∈ g.compiledIds r) :
    (g.compile r).digraph.order = List.range (g.compile r).steps.length := by
  have h := g.wellFormed_compile r
  by_cases hnil : (g.compile r).connections = []
  · exact h.order_eq_range_of_nil hnil
  · have hcopies := copies_compile hclosed (h.drawnConnections_eq hnil)
    rw [← length_compiledIds]
    refine hcopies.order_eq_range (fun v ↦ decide_eq_true_iff) compiledIds_sublist
      (Digraph.map_idxOf_eq_range nodup_compiledIds) ?_
    rw [length_compiledIds]
    rfl

/-- If all nodes are eligible and edges join nodes, then the sources of edges into compiled ids are
compiled. -/
theorem source_mem_compiledIds (helig : ∀ n ∈ g.nodes, n.isEligible r)
    (hends : ∀ e ∈ g.edges, e.source ∈ g.nodes.map Node.id) {e : Edge} (he : e ∈ g.edges)
    (ht : e.target ∈ g.compiledIds r) : e.source ∈ g.compiledIds r := by
  rw [mem_compiledIds] at ht ⊢
  refine ⟨fun hheld ↦ ht.1 (hheld.of_arc (arc_iff.mpr ⟨e, he, rfl, rfl⟩)), ?_⟩
  obtain ⟨n, hn⟩ := Option.isSome_iff_exists.mp (lastNode?_isSome_iff.mpr (hends e he))
  obtain ⟨hid, hlast⟩ := lastNode?_eq_some_iff.mp hn
  exact ⟨n, hid, hlast, helig n hlast.mem⟩

/-! ## One round trip -/

/-- **One round trip.** It takes the steps in the order of their places. If there are connections,
it keeps them and gives them the new places; if there are none, it joins the steps in turn. The
schedule comes back as it was exactly if it has a connection or less than two steps and its places
are in order, and the places are in order if no edge enters a compiled id from another one. -/
theorem redrawn_compile (r : Restriction) (g : Graph) :
    let s := g.compile r
    let order := s.digraph.order
    order.Perm (List.range s.steps.length) ∧
      s.redrawn.steps = order.filterMap (s.steps[·]?) ∧
      (s.connections ≠ [] → s.redrawn.connections = s.connections.map fun c ↦
        ⟨order.idxOf c.source, order.idxOf c.target, c.condition⟩) ∧
      (s.connections = [] → s.redrawn.steps = s.steps ∧ s.redrawn.connections
        = (List.range (s.steps.length - 1)).map fun i ↦ ⟨i, i + 1, .alwaysTrue⟩) ∧
      (s.redrawn = s ↔
        (s.connections ≠ [] ∨ s.steps.length ≤ 1) ∧ order = List.range s.steps.length) ∧
      ((s.connections ≠ [] ∨ s.steps.length ≤ 1) →
        (∀ e ∈ g.edges, e.target ∈ g.compiledIds r → e.source ∈ g.compiledIds r) →
        s.redrawn = s ∧ s.redrawn.fingerprint = s.fingerprint) := by
  intro s order
  have h : s.WellFormed := g.wellFormed_compile r
  refine ⟨h.perm_order, h.redrawn_steps, fun hne ↦ ?_, fun hnil ↦ ⟨?_, ?_⟩,
    h.redrawn_eq_self_iff, fun hdrawn hclosed ↦ ?_⟩
  · rw [h.redrawn_connections, h.drawnConnections_eq hne]
  · exact h.redrawn_steps_of_order (h.order_eq_range_of_nil hnil)
  · exact h.redrawn_connections_of_nil hnil
  · have hself : s.redrawn = s := h.redrawn_eq_self_iff.mpr ⟨hdrawn, order_compile hclosed⟩
    exact ⟨hself, congrArg Schedule.fingerprint hself⟩

/-- **When a round trip is made.** A schedule that a canvas was compiled to, and that was handed out,
is drawn unless a number of runs is too long for a description; and the compiled drawing is handed
out too. -/
theorem buildFault?_compile (h : (g.compile r).copiedFault? = none) :
    ((g.compile r).buildFault? = none ↔
      ∀ step ∈ (g.compile r).steps, step.hasLongCount = false) ∧
    ((g.compile r).buildFault? = none → (g.compile r).redrawn.copiedFault? = none) := by
  rw [Schedule.copiedFault?, copyFault?_eq_none_iff, List.all_eq_true] at h
  refine ⟨?_, Schedule.copiedFault?_redrawn⟩
  rw [Schedule.buildFault?_eq_none_iff]
  refine ⟨fun hbuilt step hstep ↦ (hbuilt.1 step hstep).1,
    fun hshort ↦ ⟨fun step hstep ↦ ⟨hshort step hstep, h step hstep⟩, fun c hc _ ↦ ?_⟩⟩
  -- conditions of a compiled schedule are in normal form
  rw [← (g.wellFormed_compile r).normalized c hc]
  exact Branch.isCopied_condition _

/-- A joined pair, and a node without a canister that the first of them enters as well. -/
def sideline : Graph where
  nodes := [.plain "b" "y", .plain "p" "", .plain "a" "x"]
  edges := [.plain "e" "a" "p", .plain "f" "a" "b"]

theorem redrawn_compile_sideline :
    (sideline.compile .none).redrawn = sideline.compile .none ∧
      (sideline.compile .none).redrawn.fingerprint = (sideline.compile .none).fingerprint :=
  (redrawn_compile .none sideline).2.2.2.2.2 (.inl (by decide +kernel)) (by decide +kernel)

/-- Two agents that nothing joins. -/
def unlinked : Graph := ⟨[.plain "a" "x", .plain "b" "y"], []⟩

/-- Of three agents, the second is entered from the first, and the third through a node without a
canister that is entered from another such node. -/
def detour : Graph where
  nodes := [.plain "p" "", .plain "a" "x", .plain "q" "", .plain "b" "y", .plain "c" "z"]
  edges := [.plain "e" "a" "b", .plain "f" "p" "q", .plain "g" "q" "c"]

/-- A round trip may add connections, and it may swap steps. -/
theorem redrawn_ne_self :
    (unlinked.compile .none).redrawn ≠ unlinked.compile .none ∧
      (detour.compile .none).connections ≠ [] ∧
      (detour.compile .none).redrawn.steps ≠ (detour.compile .none).steps := by
  constructor
  · decide +kernel
  · decide +kernel

/-! ## Later round trips -/

/-- **Later round trips.** The first one is the last that changes a schedule. It changes none if all
nodes are eligible, edges join nodes, and the schedule has a connection or less than two steps. -/
theorem iterate_redrawn_compile (r : Restriction) (g : Graph) :
    let s := g.compile r
    (∀ k, Schedule.redrawn^[k + 1] s = s.redrawn ∧
      (Schedule.redrawn^[k + 1] s).fingerprint = s.redrawn.fingerprint) ∧
    ((∀ n ∈ g.nodes, n.isEligible r) →
      (∀ e ∈ g.edges, e.source ∈ g.nodes.map Node.id ∧ e.target ∈ g.nodes.map Node.id) →
      (s.connections ≠ [] ∨ s.steps.length ≤ 1) → s.redrawn = s) := by
  intro s
  have h : s.WellFormed := g.wellFormed_compile r
  have hiterate : ∀ k, Schedule.redrawn^[k + 1] s = s.redrawn := by
    intro k
    rw [Function.iterate_succ_apply, Function.iterate_fixed h.redrawn_redrawn]
  refine ⟨fun k ↦ ⟨hiterate k, congrArg _ (hiterate k)⟩, fun helig hends hdrawn ↦ ?_⟩
  refine h.redrawn_eq_self_iff.mpr ⟨hdrawn, order_compile fun e he ht ↦ ?_⟩
  exact source_mem_compiledIds helig (fun e he ↦ (hends e he).1) he ht

/-- Two paths from one agent to another, listed from behind. -/
def diamond : Graph where
  nodes := [.plain "d" "z", .plain "c" "y", .plain "b" "x", .plain "a" "w"]
  edges := [.plain "e" "a" "b", .plain "f" "a" "c", .plain "g" "c" "d", .plain "h" "b" "d"]

theorem redrawn_compile_diamond : (diamond.compile .none).redrawn = diamond.compile .none :=
  (iterate_redrawn_compile .none diamond).2 (by decide +kernel) (by decide)
    (.inl (by decide +kernel))

end Graph

end AgentFlow
