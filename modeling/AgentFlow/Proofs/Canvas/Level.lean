import AgentFlow.Proofs.Canvas.Order
import AgentFlow.Proofs.Digraph.Level

/-!
# The levels of a canvas

What is known of the levels of a directed graph, said of nodes and edges. A path starts at an id of
a node that is the target of no edge, be it an edge from an id without a node, and it goes through
ids of nodes only; ids without a node are not walked to. So an edge from an id without a node has
one effect alone: it keeps its target from being a start.

Ids that no such path reaches, those on a cycle among them, have the level of the starts. This is
why an edge from such an id may lead to any level.
-/

namespace AgentFlow

namespace Graph

/-- **Levels are shortest distances.** Every id of a node has one level. It is the least number of
edges on a path to the id, and zero if there is no path. From an id that is reached, an edge leads
one level further at most. -/
theorem levels_exact (g : Graph) :
    g.levels.map Prod.fst = (g.nodes.map Node.id).eraseDups ∧
      ∀ v k, (v, k) ∈ g.levels →
        ((∃ n, g.digraph.FromRoot v n) → IsLeast {n | g.digraph.FromRoot v n} k) ∧
        ((∀ n, ¬g.digraph.FromRoot v n) → k = 0) ∧
        ((∃ n, g.digraph.FromRoot v n) →
          ∀ e ∈ g.edges, e.source = v → ∀ j, (e.target, j) ∈ g.levels → j ≤ k + 1) := by
  have hmem : ∀ v k, (v, k) ∈ g.levels → v ∈ g.nodes.map Node.id ∧ g.digraph.level v = k := by
    intro v k hvk
    obtain ⟨u, hu, heq⟩ := List.mem_map.mp hvk
    obtain ⟨rfl, hk⟩ := Prod.mk.inj heq
    exact ⟨List.mem_eraseDups.mp hu, hk⟩
  refine ⟨?_, fun v k hvk ↦ ⟨?_, fun hnone ↦ ?_, ?_⟩⟩
  · rw [levels, List.map_map]
    exact List.map_id _
  · rintro ⟨n, hn⟩
    rw [← (hmem v k hvk).2]
    exact Digraph.isLeast_level hn
  · rw [← (hmem v k hvk).2]
    exact Digraph.level_eq_zero hnone
  · rintro ⟨n, hn⟩ e he rfl j hj
    obtain ⟨ht, rfl⟩ := hmem e.target j hj
    rw [← (hmem e.source k hvk).2]
    exact Digraph.level_le_of_arc hn (arc_iff.mpr ⟨e, he, rfl, rfl⟩) ht

/-- Two paths to one agent, the longer one listed first. An edge from an id without a node enters
the longer path, and an agent beside it is joined to itself and to that path. -/
def detoured : Graph where
  nodes := [.plain "d" "t", .plain "l" "u", .plain "a" "x", .plain "b" "y", .plain "c" "z"]
  edges := [.plain "e" "a" "b", .plain "f" "b" "c", .plain "g" "c" "d", .plain "h" "a" "d",
    .plain "i" "p" "b", .plain "j" "l" "l", .plain "k" "l" "c"]

theorem isLeast_level_detoured :
    ((("d" : Text), 1) ∈ detoured.levels) ∧
      IsLeast {n | detoured.digraph.FromRoot ("d" : Text) n} 1 := by
  have hroot : ∀ t, ¬detoured.digraph.Arc t ("a" : Text) := by
    rintro t ht
    obtain ⟨e, he, -, htarget⟩ := arc_iff.mp ht
    revert e
    decide
  have hd : detoured.digraph.FromRoot ("d" : Text) 1 :=
    ⟨"a", hroot, .concat (.nil (by decide)) (arc_iff.mpr ⟨.plain "h" "a" "d", by decide⟩)
      (by decide)⟩
  obtain ⟨hids, hlevels⟩ := detoured.levels_exact
  have hmem : ("d" : Text) ∈ detoured.levels.map Prod.fst := by
    rw [hids]
    decide +kernel
  obtain ⟨⟨v, k⟩, hk, rfl : v = "d"⟩ := List.mem_map.mp hmem
  have hleast := (hlevels "d" k hk).1 ⟨1, hd⟩
  -- the level is no greater than one, and zero is that of ids that no edge enters
  obtain rfl : k = 1 := by
    refine le_antisymm (hleast.2 hd) (Nat.one_le_iff_ne_zero.mpr ?_)
    rintro rfl
    obtain ⟨u, hu, hwalk⟩ := hleast.1
    cases hwalk
    exact hu "a" (arc_iff.mpr ⟨.plain "h" "a" "d", by decide⟩)
  exact ⟨hk, hleast⟩

end Graph

end AgentFlow
