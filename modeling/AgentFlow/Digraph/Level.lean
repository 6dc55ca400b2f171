import AgentFlow.Digraph.Basic

/-!
# Levels

Breadth-first levels from all vertices without an arc into them. The level of a vertex is fixed when
it first leaves the queue, so it is that of its shortest path and not of its longest. Only vertices
are walked to, but arcs from any id count as arcs into a vertex. Vertices that are not met, such as
those on a cycle, have level zero.
-/

namespace AgentFlow

namespace Digraph

variable {α : Type} [DecidableEq α]

/-- Works through a queue of vertices with the levels at which they were met; `fresh` are the
vertices without a level. -/
def spread (g : Digraph α) : List α → List (α × Nat) → List (α × Nat)
  | _, [] => []
  | fresh, (v, level) :: queue =>
    if v ∈ fresh then
      let rest := fresh.erase v
      let met := (g.successors v).filter (· ∈ rest)
      (v, level) :: spread g rest (queue ++ met.map fun u ↦ (u, level + 1))
    else spread g fresh queue
termination_by fresh queue => (fresh.length, queue.length)
decreasing_by
  · left
    rename_i h
    rw [List.length_erase_of_mem h]
    have := List.length_pos_of_mem h
    omega
  · right
    simp

/-- The vertices that no arc enters. -/
def roots (g : Digraph α) : List α := g.vertices.filter fun v ↦ g.inDegree v = 0

/-- The vertices that are met, with their levels. -/
def levels (g : Digraph α) : List (α × Nat) :=
  g.spread g.vertices.eraseDups (g.roots.map fun v ↦ (v, 0))

/-- The level that a list of levels gives a vertex; zero if it gives none. -/
def levelIn (levels : List (α × Nat)) (v : α) : Nat := (List.lookup v levels).getD 0

/-- The level of a vertex. -/
def level (g : Digraph α) (v : α) : Nat := levelIn g.levels v

end Digraph

end AgentFlow
