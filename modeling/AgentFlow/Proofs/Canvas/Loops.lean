import AgentFlow.Proofs.Canvas.Cycle
import AgentFlow.Proofs.Digraph.CycleLoop
import AgentFlow.Proofs.Digraph.LevelLoop
import AgentFlow.Proofs.Digraph.OrderLoop

/-!
# The loops over a canvas

The loops of the three traversals, with their tables of counts, neighbours and children, run on the
ids and edges of a canvas. On every canvas they end with what the traversals give, and no lookup in
them fails; nothing is assumed of the ids, which may be repeated or be those of no node.

What is known of the states that they pass is said of nodes and edges here. The order leaves its
loop as a list of ids, for which nodes are looked up once more.
-/

namespace AgentFlow

namespace Graph

/-! ## Nodes by id -/

/-- The nodes by id; a later node of an id takes the place of an earlier one. -/
def nodeTable (g : Graph) : Table Text Node := g.nodes.foldl (fun t n ↦ t.put n.id n) []

/-- The nodes of ids. An id is looked up if it is in the table. -/
def nodesOf? (g : Graph) (ids : List Text) : Option (List Node) :=
  (ids.filter fun v ↦ (g.nodeTable.get? v).isSome).mapM g.nodeTable.get?

theorem get?_nodeTable (g : Graph) (v : Text) : g.nodeTable.get? v = lastNode? g.nodes v := by
  obtain ⟨nodes, edges⟩ := g
  simp only [nodeTable, lastNode?, List.findRev?_eq_find?_reverse]
  induction nodes using List.reverseRecOn with
  | nil => rfl
  | append_singleton nodes n ih =>
    rw [List.foldl_concat, Table.get?_put, ih, List.reverse_concat, List.find?_cons]
    by_cases h : n.id = v
    · simp [h]
    · simp [h, Ne.symm h]

/-- **The nodes of ids**; no lookup fails. -/
theorem nodesOf?_eq (g : Graph) (ids : List Text) :
    g.nodesOf? ids = some (ids.filterMap (lastNode? g.nodes)) := by
  have hget : g.nodeTable.get? = lastNode? g.nodes := funext g.get?_nodeTable
  rw [nodesOf?, hget]
  induction ids with
  | nil => rfl
  | cons v ids ih =>
    cases hv : lastNode? g.nodes v with
    | none => simpa [hv] using ih
    | some n => simp [hv, ih]

/-! ## Counts -/

/-- The number of edges into an id whose sources were not processed. -/
def unprocessed (g : Graph) (done : List Text) (v : Text) : Nat :=
  g.edges.countP fun e ↦ e.target = v ∧ e.source ∉ done

theorem unsettled_digraph (g : Graph) (done : List Text) (v : Text) :
    g.digraph.unsettled done v = g.unprocessed done v := by
  rw [Digraph.unsettled, digraph, List.countP_map, unprocessed]
  refine congrArg (List.countP · g.edges) (funext fun e ↦ ?_)
  exact decide_eq_decide.mpr Iff.rfl

/-! ## The loops -/

/-- **The loops end and never miss a key.**

* The loop of the order gives the order. Each id leaves its queue at most once. Whenever it comes
  back to the queue, the count of an id is the number of edges into it whose sources were not
  processed, and no count is ever negative.
* The loop of the search gives what is found. Each id is pushed at most once, and the path is that
  of the stack, without repetitions and with its ids in the set.
* The loop of the levels gives the levels. No more entries leave its queue than there are nodes and
  edges. -/
theorem loops_end (g : Graph) :
    (g.digraph.orderLoop.Ends g.digraph.order ∧ g.digraph.orderLoop.NeverFails ∧
      g.nodesOf? g.digraph.order = some g.order ∧
      ∀ s, g.digraph.orderLoop.Passes s →
        s.done.Nodup ∧ (∀ v, (s.counts.get? v).isSome ↔ g.digraph.Entered v) ∧
          ∀ v k, s.counts.get? v = some k →
            0 ≤ k ∧ (s.ahead = [] → k = (g.unprocessed s.done v : Int))) ∧
    (g.digraph.cycleLoop.Ends g.findCycle? ∧ g.digraph.cycleLoop.NeverFails ∧
      ∀ s, g.digraph.cycleLoop.Passes s →
        s.pushed.Nodup ∧ s.path = (s.stack.map Prod.fst).reverse ∧ s.path.Nodup ∧
          s.onPath = s.path.toFinset) ∧
    (g.digraph.levelLoop.Ends g.digraph.levels ∧ g.digraph.levelLoop.NeverFails ∧
      ∀ s, g.digraph.levelLoop.Passes s →
        s.left.length ≤ g.nodes.length + g.edges.length) := by
  obtain ⟨horder, hordered, hsorting⟩ := g.digraph.orderLoop_run
  obtain ⟨hcycle, hsearched, hsearching⟩ := g.digraph.cycleLoop_run
  obtain ⟨hlevels, hlevelled, hlevelling⟩ := g.digraph.levelLoop_run
  refine ⟨⟨horder, hordered, g.nodesOf?_eq _, fun s hs ↦ ?_⟩, ⟨hcycle, hsearched, fun s hs ↦ ?_⟩,
    hlevels, hlevelled, fun s hs ↦ ?_⟩
  · have h := hsorting s hs
    refine ⟨h.nodup_done, fun v ↦ h.isSome_get?_iff, fun v k hk ↦ ?_⟩
    obtain rfl := h.eq_of_get? hk
    refine ⟨Int.natCast_nonneg _, fun hahead ↦ ?_⟩
    rw [hahead, Digraph.outstanding_nil, unsettled_digraph]
  · have h := hsearching s hs
    exact ⟨h.nodup_pushed, h.path_eq, h.nodup_path, h.onPath_eq⟩
  · have hle := (hlevelling s hs).length_left_le
    rwa [digraph, List.length_map, List.length_map] at hle

/-- An id that two nodes have, with two edges to one that is joined to itself. Another edge into it
leaves an id that no node has, and a last edge enters one that no node has. -/
def tangle : Graph where
  nodes := [.plain "a" "x", .plain "b" "y", .plain "a" "z"]
  edges := [.plain "e" "a" "b", .plain "f" "a" "b", .plain "g" "b" "b", .plain "h" "ghost" "b",
    .plain "i" "a" "p"]

theorem loops_end_tangle :
    (∃ s, tangle.digraph.orderLoop.Passes s ∧ s.done = (["a"] : List Text) ∧
      s.counts.get? "b" = some 2 ∧ 2 = (tangle.unprocessed s.done "b" : Int)) ∧
    (∃ s, tangle.digraph.cycleLoop.Passes s ∧ s.path = (["a", "b"] : List Text) ∧
      s.path = (s.stack.map Prod.fst).reverse) ∧
    ∃ s, tangle.digraph.levelLoop.Passes s ∧ s.left.length = 4 ∧
      s.left.length ≤ tangle.nodes.length + tangle.edges.length := by
  obtain ⟨⟨-, -, -, hcounts⟩, ⟨-, -, hpath⟩, -, -, hleft⟩ := tangle.loops_end
  have horder : (tangle.digraph.orderLoop.after 4).map
      (fun s ↦ (s.done, s.ahead, s.counts.get? "b")) = some ((["a"] : List Text), [], some 2) := by
    decide +kernel
  have hcycle : (tangle.digraph.cycleLoop.after 2).map (·.path)
      = some (["a", "b"] : List Text) := by
    decide +kernel
  have hlevel : (tangle.digraph.levelLoop.after 4).map (·.left.length) = some 4 := by
    decide +kernel
  obtain ⟨s, hs, hstate⟩ := Option.map_eq_some_iff.mp horder
  obtain ⟨hdone, hahead, hcount⟩ : s.done = _ ∧ s.ahead = _ ∧ s.counts.get? "b" = _ := by
    simpa only [Prod.mk.injEq] using hstate
  obtain ⟨t, ht, htpath⟩ := Option.map_eq_some_iff.mp hcycle
  obtain ⟨u, hu, hlength⟩ := Option.map_eq_some_iff.mp hlevel
  exact ⟨⟨s, ⟨4, hs⟩, hdone, hcount, ((hcounts s ⟨4, hs⟩).2.2 "b" 2 hcount).2 hahead⟩,
    ⟨t, ⟨2, ht⟩, htpath, (hpath t ⟨2, ht⟩).2.1⟩, u, ⟨4, hu⟩, hlength, hleft u ⟨4, hu⟩⟩

end Graph

end AgentFlow
