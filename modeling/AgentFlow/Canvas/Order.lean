import AgentFlow.Canvas.Graph
import AgentFlow.Digraph.Cycle
import AgentFlow.Digraph.Level
import AgentFlow.Digraph.Order

/-!
# The order of a canvas

What the traversals of directed graphs say about a canvas: edges are arcs between ids, and an id
stands for the last node that carries it.
-/

namespace AgentFlow

namespace Graph

/-- The ids and edges of a canvas as a directed graph. -/
def digraph (g : Graph) : Digraph Text := ⟨g.nodes.map Node.id, g.edges.map Edge.arc⟩

/-- The nodes in topological order, without those on a cycle and those held back. -/
def order (g : Graph) : List Node := g.digraph.order.filterMap (lastNode? g.nodes)

/-- The number of nodes that the order leaves out. -/
def omitted (g : Graph) : Nat := g.nodes.length - g.order.length

/-- The ids of the first cycle that is found, as a closed path. -/
def findCycle? (g : Graph) : Option (List Text) := g.digraph.findCycle?

/-- Whether a cycle is found. -/
def hasCycle (g : Graph) : Bool := g.digraph.hasCycle

/-- The level of every node by id; a repeated id keeps its first place. -/
def levels (g : Graph) : List (Text × Nat) :=
  let levels := g.digraph.levels
  (g.nodes.map Node.id).eraseDups.map fun v ↦ (v, Digraph.levelIn levels v)

end Graph

end AgentFlow
