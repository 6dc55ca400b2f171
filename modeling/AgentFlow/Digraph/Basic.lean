/-!
# Directed graphs by lists

A finite directed graph as it arises from a canvas: a list of vertices and a list of arcs, both in
order and possibly with repetitions. Arcs may name ids that are no vertices; such ids take part in
paths, in degrees and in the traversals, but they are never asked for.
-/

namespace AgentFlow

/-- A finite directed graph, by the lists of its vertices and arcs. -/
structure Digraph (α : Type) where
  /-- The vertices in order. -/
  vertices : List α
  /-- The arcs in order, each from its source to its target. -/
  arcs : List (α × α)

namespace Digraph

variable {α : Type}

/-! ## Paths -/

/-- There is an arc from `u` to `v`. -/
def Arc (g : Digraph α) (u v : α) : Prop := (u, v) ∈ g.arcs

/-- There is a path of one or more arcs from `u` to `v`. -/
def Leads (g : Digraph α) : α → α → Prop := Relation.TransGen g.Arc

/-- There is a path of any number of arcs from `u` to `v`. -/
def Reaches (g : Digraph α) (u v : α) : Prop := u = v ∨ g.Leads u v

/-- `v` lies on a cycle. -/
def OnCycle (g : Digraph α) (v : α) : Prop := g.Leads v v

/-- `v` is named as a vertex or as the target of an arc. -/
def Entered (g : Digraph α) (v : α) : Prop := v ∈ g.vertices ∨ ∃ u, g.Arc u v

/-! ## Neighbours -/

variable [DecidableEq α]

/-- The targets of the arcs out of a vertex, in the order of the arcs. -/
def successors (g : Digraph α) (v : α) : List α :=
  (g.arcs.filter fun a ↦ a.1 = v).map Prod.snd

/-- The number of arcs into a vertex. -/
def inDegree (g : Digraph α) (v : α) : Nat := g.arcs.countP fun a ↦ a.2 = v

/-- All ids that are entered, each once: the vertices in order, then the other targets. -/
def entered (g : Digraph α) : List α := (g.vertices ++ g.arcs.map Prod.snd).eraseDups

theorem mem_successors {g : Digraph α} {u v : α} : v ∈ g.successors u ↔ g.Arc u v := by
  simp [successors, Arc]

theorem mem_entered {g : Digraph α} {v : α} : v ∈ g.entered ↔ g.Entered v := by
  simp [entered, Entered, Arc, List.mem_eraseDups]

end Digraph

end AgentFlow
