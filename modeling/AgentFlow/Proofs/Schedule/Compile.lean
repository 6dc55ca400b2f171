import AgentFlow.Schedule.Compile
import AgentFlow.Proofs.Canvas.Order
import Mathlib.Data.List.Forall2

/-!
# What compiling keeps of a canvas

A compiled canvas names nodes by the places of their steps. All of the compiler's parts speak about
one list, the ids that are compiled in the order of their steps (`compiledIds`): steps are the steps
of the last nodes of these ids, connections are the edges between these ids with the ends replaced
by their places (`connections_eq`).

The list is a part of the order of the canvas. That is all that is needed for connections to go
forward, and also for more: two compiled ids stand in the right order when a path joins them of
which no id between is compiled (`lt_of_leads_compiledIds`).
-/

namespace AgentFlow

/-! ## Edges between listed ids -/

/-- The connection between the places of the ends of an edge. -/
def Edge.placed (ids : List Text) (e : Edge) : Connection :=
  ⟨ids.idxOf e.source, ids.idxOf e.target, e.condition.normalized⟩

/-- Whether both ends of an edge are listed. -/
def Edge.within (ids : List Text) (e : Edge) : Bool :=
  ids.contains e.source && ids.contains e.target

theorem Edge.within_iff {ids : List Text} {e : Edge} :
    e.within ids ↔ e.source ∈ ids ∧ e.target ∈ ids := by
  rw [within, Bool.and_eq_true, List.contains_iff_mem, List.contains_iff_mem]

private theorem idxOf?_of_mem {α : Type} [BEq α] [LawfulBEq α] {l : List α} {a : α}
    (ha : a ∈ l) : l.idxOf? a = some (l.idxOf a) := by
  obtain ⟨i, hi⟩ := Option.isSome_iff_exists.mp (List.isSome_idxOf?.mpr ha)
  rw [List.idxOf_eq_getD_idxOf?, hi, Option.getD_some]

theorem Edge.connection?_eq (ids : List Text) (e : Edge) :
    e.connection? ids = if e.within ids then some (e.placed ids) else none := by
  by_cases hs : e.source ∈ ids
  · by_cases ht : e.target ∈ ids
    · simp [connection?, within, placed, hs, ht, idxOf?_of_mem]
    · simp [connection?, within, ht, List.idxOf?_eq_none_iff.mpr ht]
  · simp [connection?, within, hs, List.idxOf?_eq_none_iff.mpr hs]

theorem filterMap_connection? (ids : List Text) (edges : List Edge) :
    edges.filterMap (Edge.connection? ids)
      = (edges.filter (Edge.within ids)).map (Edge.placed ids) := by
  induction edges with
  | nil => rfl
  | cons e edges ih =>
    rw [List.filterMap_cons, ih, Edge.connection?_eq, List.filter_cons]
    by_cases he : e.within ids
    · rw [if_pos he, if_pos he, List.map_cons]
    · rw [if_neg he, if_neg he]

theorem Edge.getElem?_placed {ids : List Text} {e : Edge} (he : e.within ids) :
    ids[(e.placed ids).source]? = some e.source ∧ ids[(e.placed ids).target]? = some e.target ∧
      (e.placed ids).condition = e.condition.normalized := by
  obtain ⟨hs, ht⟩ := within_iff.mp he
  exact ⟨List.getElem?_idxOf hs, List.getElem?_idxOf ht, rfl⟩

namespace Graph

/-! ## Compiled ids -/

/-- The ids of the nodes that are compiled, in the order of their steps. -/
def compiledIds (r : Restriction) (g : Graph) : List Text := (g.compiledNodes r).map Node.id

variable {r : Restriction} {g : Graph}

theorem compiledIds_sublist : (g.compiledIds r).Sublist g.digraph.order :=
  (List.filter_sublist.map _).trans g.order_map_id_sublist

theorem nodup_compiledIds : (g.compiledIds r).Nodup :=
  g.digraph.nodup_order.sublist compiledIds_sublist

theorem mem_compiledNodes {n : Node} :
    n ∈ g.compiledNodes r ↔ ¬g.digraph.HeldBack n.id ∧ IsLast g.nodes n ∧ n.isEligible r := by
  rw [compiledNodes, eligibleNodes, List.mem_filter, mem_order, and_assoc]

theorem mem_compiledIds {v : Text} :
    v ∈ g.compiledIds r ↔ ¬g.digraph.HeldBack v ∧
      ∃ n, n.id = v ∧ IsLast g.nodes n ∧ n.isEligible r := by
  rw [compiledIds, List.mem_map]
  constructor
  · rintro ⟨n, hn, rfl⟩
    obtain ⟨hfree, hlast, helig⟩ := mem_compiledNodes.mp hn
    exact ⟨hfree, n, rfl, hlast, helig⟩
  · rintro ⟨hfree, n, rfl, hlast, helig⟩
    exact ⟨n, mem_compiledNodes.mpr ⟨hfree, hlast, helig⟩, rfl⟩

theorem connections_eq :
    g.connections r
      = (g.edges.filter (Edge.within (g.compiledIds r))).map (Edge.placed (g.compiledIds r)) :=
  filterMap_connection? _ _

/-! ## Steps -/

theorem length_compiledIds : (g.compiledIds r).length = (g.compile r).steps.length := by
  rw [compiledIds, List.length_map, compile, steps, List.length_map]

theorem exists_step_of_getElem? {i : Nat} {v : Text} (hv : (g.compiledIds r)[i]? = some v) :
    ∃ n, n.id = v ∧ IsLast g.nodes n ∧ (g.compile r).steps[i]? = some n.step := by
  rw [compiledIds, List.getElem?_map] at hv
  obtain ⟨n, hn, rfl⟩ := Option.map_eq_some_iff.mp hv
  have hlast := (mem_compiledNodes.mp (List.mem_of_getElem? hn)).2.1
  exact ⟨n, rfl, hlast, by rw [compile, steps, List.getElem?_map, hn, Option.map_some]⟩

/-! ## Connections -/

/-- The connections are the edges between compiled ids, in order. -/
theorem forall₂_connections :
    List.Forall₂ (fun e c ↦ (g.compiledIds r)[c.source]? = some e.source ∧
        (g.compiledIds r)[c.target]? = some e.target ∧ c.condition = e.condition.normalized)
      (g.edges.filter fun e ↦ e.source ∈ g.compiledIds r ∧ e.target ∈ g.compiledIds r)
      (g.compile r).connections := by
  have hwithin : (g.edges.filter fun e ↦ e.source ∈ g.compiledIds r ∧ e.target ∈ g.compiledIds r)
      = g.edges.filter (Edge.within (g.compiledIds r)) :=
    List.filter_congr fun e _ ↦ by rw [Bool.eq_iff_iff, decide_eq_true_iff, Edge.within_iff]
  rw [hwithin, compile, connections_eq, List.forall₂_map_right_iff, List.forall₂_same]
  exact fun e he ↦ Edge.getElem?_placed (List.mem_filter.mp he).2

theorem exists_edge_of_mem_connections {c : Connection} (hc : c ∈ (g.compile r).connections) :
    ∃ e ∈ g.edges, (g.compiledIds r)[c.source]? = some e.source ∧
      (g.compiledIds r)[c.target]? = some e.target ∧ c.condition = e.condition.normalized := by
  rw [compile, connections_eq] at hc
  obtain ⟨e, he, rfl⟩ := List.mem_map.mp hc
  exact ⟨e, List.mem_of_mem_filter he, Edge.getElem?_placed (List.mem_filter.mp he).2⟩

theorem lt_of_leads_compiledIds {i j : Nat} {u v : Text} (hu : (g.compiledIds r)[i]? = some u)
    (hv : (g.compiledIds r)[j]? = some v) (h : g.digraph.Leads u v) : i < j := by
  obtain ⟨hi, rfl⟩ := List.getElem?_eq_some_iff.mp hu
  obtain ⟨hj, rfl⟩ := List.getElem?_eq_some_iff.mp hv
  exact Digraph.lt_of_leads compiledIds_sublist hi hj h

theorem connection_forward {c : Connection} (hc : c ∈ (g.compile r).connections) :
    c.source < c.target ∧ c.target < (g.compile r).steps.length := by
  obtain ⟨e, he, hs, ht, -⟩ := exists_edge_of_mem_connections hc
  obtain ⟨hlt, -⟩ := List.getElem?_eq_some_iff.mp ht
  exact ⟨lt_of_leads_compiledIds hs ht (.single (arc_iff.mpr ⟨e, he, rfl, rfl⟩)),
    hlt.trans_eq length_compiledIds⟩

/-! ## Compiling in full -/

/-- **Compiling re-addresses, and only forward.** The steps are those of the nodes that are not held
back, are the last of their ids and are eligible. With the list of their ids, the connections are
one for each edge between two of them, in order, with the places of its ends; and whenever a path
of edges leads from one of them to another, through any ids, the first has the smaller place. -/
theorem exists_compiled_ids (r : Restriction) (g : Graph) :
    ∃ ids : List Text, ids.Nodup ∧ ids.length = (g.compile r).steps.length ∧
      (∀ v, v ∈ ids ↔ ¬g.digraph.HeldBack v ∧
        ∃ n, n.id = v ∧ IsLast g.nodes n ∧ n.isEligible r) ∧
      (∀ (i : Nat) v, ids[i]? = some v →
        ∃ n, n.id = v ∧ IsLast g.nodes n ∧ (g.compile r).steps[i]? = some n.step) ∧
      List.Forall₂ (fun e c ↦ ids[c.source]? = some e.source ∧ ids[c.target]? = some e.target ∧
          c.condition = e.condition.normalized)
        (g.edges.filter fun e ↦ e.source ∈ ids ∧ e.target ∈ ids) (g.compile r).connections ∧
      (∀ (i j : Nat) u v, ids[i]? = some u → ids[j]? = some v → g.digraph.Leads u v → i < j) ∧
      ∀ c ∈ (g.compile r).connections,
        c.source < c.target ∧ c.target < (g.compile r).steps.length :=
  ⟨g.compiledIds r, nodup_compiledIds, length_compiledIds, fun _ ↦ mem_compiledIds,
    fun _ _ ↦ exists_step_of_getElem?, forall₂_connections,
    fun _ _ _ _ ↦ lt_of_leads_compiledIds, fun _ ↦ connection_forward⟩

/-! ## Handing a schedule out -/

/-- **The schedule of a canvas is handed out** unless a compiled node calls an agent with a
configuration that has too many levels to be copied. The other nodes do not count, nor do edges. -/
theorem copiedFault?_compile_eq_none_iff :
    (g.compile r).copiedFault? = none ↔
      ∀ n ∈ g.compiledNodes r, ∀ call, n.data.stepTarget = some (.agent call) →
        call.config.height ≤ copyHeight := by
  have hcopied : ∀ n : Node, n.step.isCopied ↔
      ∀ call, n.data.stepTarget = some (.agent call) → call.config.height ≤ copyHeight := by
    intro n
    rw [Step.isCopied, Node.step]
    rcases n.data.stepTarget with - | call | call
    · simp
    · simp [StepTarget.isCopied, Json.isCopied]
    · simp [StepTarget.isCopied]
  rw [Schedule.copiedFault?, copyFault?_eq_none_iff, List.all_eq_true, compile, steps,
    List.forall_mem_map]
  exact forall₂_congr fun n _ ↦ hcopied n

end Graph

end AgentFlow
