import AgentFlow.Digraph.Basic

/-!
# Finding a cycle

Depth-first search with an explicit stack. A frame holds an id and the neighbours of it that were
not looked at yet; the ids of the stack are the path from the root. A neighbour on the path closes a
cycle, one that was never met is descended into, any other is passed over. Roots are tried in the
order of the vertices and neighbours in the order of the arcs.

Instead of the ids that were met, the search keeps those that were not (`fresh`); the list shrinks
with every descent, which is what bounds the run.
-/

namespace AgentFlow

namespace Digraph

variable {α : Type} [DecidableEq α]

/-- An id of the path and its neighbours that were not looked at yet. -/
abbrev Frame (α : Type) := α × List α

/-- What a search from one root comes to. -/
inductive Search (α : Type) where
  /-- A closed path. -/
  | cycle (path : List α)
  /-- No cycle; these ids are still fresh. -/
  | clear (fresh : List α)

/-- The part of a path from an id on, closed with that id. -/
def closePath (path : List α) (v : α) : List α := path.dropWhile (· ≠ v) ++ [v]

/-- The number of frames and of neighbours in them that were not looked at yet. -/
def pending : List (Frame α) → Nat
  | [] => 0
  | (_, us) :: stack => us.length + 1 + pending stack

/-- Works through a stack of frames, the newest first. -/
def search (g : Digraph α) : List α → List (Frame α) → Search α
  | fresh, [] => .clear fresh
  | fresh, (_, []) :: stack => search g fresh stack
  | fresh, (v, u :: us) :: stack =>
    let path := (v :: stack.map Prod.fst).reverse
    if u ∈ path then .cycle (closePath path u)
    else if u ∈ fresh then search g (fresh.erase u) ((u, g.successors u) :: (v, us) :: stack)
    else search g fresh ((v, us) :: stack)
termination_by fresh stack => (fresh.length, pending stack)
decreasing_by
  · right
    simp [pending]
  · left
    rename_i h
    rw [List.length_erase_of_mem h]
    have := List.length_pos_of_mem h
    omega
  · right
    simp only [pending, List.length_cons]
    omega

/-- Tries roots one after another. -/
def searchRoots (g : Digraph α) : List α → List α → Option (List α)
  | _, [] => none
  | fresh, v :: vs =>
    if v ∈ fresh then
      match g.search (fresh.erase v) [(v, g.successors v)] with
      | .cycle path => some path
      | .clear fresh => searchRoots g fresh vs
    else searchRoots g fresh vs

/-- The first cycle that the search meets, as a closed path. -/
def findCycle? (g : Digraph α) : Option (List α) := g.searchRoots g.entered g.vertices

/-- Whether the search meets a cycle. -/
def hasCycle (g : Digraph α) : Bool := g.findCycle?.isSome

end Digraph

end AgentFlow
