import AgentFlow.Canvas.ExecutionMode
import AgentFlow.Canvas.Order

/-!
# Layout

Automatic placing of nodes. The sequential layout is one row from left to right in topological order
and drops the nodes that have no place in the order. Every other layout has one column for each
level, the members of a level stacked in the order of the nodes; it keeps all nodes and their order.
Places are whole numbers, which are turned into coordinates at the end.
-/

namespace AgentFlow

/-- A node and the place that it is to have. -/
structure Placed where
  /-- The node. -/
  node : Node
  /-- The distance from the left. -/
  x : Nat
  /-- The distance from the top. -/
  y : Nat
  deriving DecidableEq

/-- The node at its new place. -/
def Placed.moved (p : Placed) : Node := p.node.moveTo (.ofInts p.x p.y)

namespace Graph

/-- Places the nodes in a row in topological order. -/
def placeInRow (g : Graph) : List Placed := g.order.mapIdx fun i n ↦ ⟨n, 100 + i * 300, 200⟩

/-- The nodes with their levels. -/
def leveled (g : Graph) : List (Node × Nat) :=
  let levels := g.digraph.levels
  g.nodes.map fun n ↦ (n, Digraph.levelIn levels n.id)

/-- The ids of the nodes of a level, in the order of the nodes. -/
def levelGroup (leveled : List (Node × Nat)) (level : Nat) : List Text :=
  (leveled.filter fun p ↦ p.2 = level).map fun p ↦ p.1.id

/-- Places the nodes in columns by level; a node that is alone in its column stands a little lower.
-/
def placeInColumns (g : Graph) : List Placed :=
  let leveled := g.leveled
  leveled.map fun p ↦
    let group := levelGroup leveled p.2
    let offset := if 1 < group.length then 0 else 50
    ⟨p.1, 100 + p.2 * 300, 100 + group.idxOf p.1.id * 150 + offset⟩

/-- Places the nodes for an execution mode, given by name. -/
def place (g : Graph) (mode : Text) : List Placed :=
  if mode = ExecutionMode.sequential.name then g.placeInRow else g.placeInColumns

/-- The nodes at their new places. -/
def layout (g : Graph) (mode : Text) : List Node := (g.place mode).map Placed.moved

/-- What keeps a layout from being handed out: its nodes are copied. -/
def layoutFault? (g : Graph) (mode : Text) : Option WriteFault :=
  copyFault? ((g.layout mode).all Node.isCopied)

end Graph

end AgentFlow
