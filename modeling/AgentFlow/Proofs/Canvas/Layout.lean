import AgentFlow.Canvas.Layout
import AgentFlow.Proofs.Canvas.Sorting

/-!
# Laying out again

A layout moves nodes and leaves the rest of them alone, ids included. The place of a node depends on
ids alone: on its place in the order for the row, and on levels and the order of the nodes for the
columns (`columnPosition`). So a second layout puts every node where it is
(`order_and_layout_idem`).

In the row this takes more than in the columns. A row lacks the nodes that have no place in the
order, so the canvas that is laid out again is another one; that its order is the row itself is the
statement on sorting again (`order_eq_self`).
-/

namespace AgentFlow

/-! ## Moved nodes

These are not left to evaluation: comparing a node with the moved one would compute its new
place. -/

theorem Node.moveTo_moveTo (n : Node) (p q : Position) : (n.moveTo p).moveTo q = n.moveTo q := by
  rw [moveTo, moveTo, moveTo]

theorem Node.moveTo_id (n : Node) (p : Position) : (n.moveTo p).id = n.id := by
  rw [moveTo]

namespace Graph

variable {g : Graph}

/-! ## The row -/

theorem map_mapIdx {α β γ : Type} (f : Nat → α → β) (h : β → γ) (l : List α) :
    (l.mapIdx f).map h = l.mapIdx fun i a ↦ h (f i a) :=
  List.ext_getElem (by simp) fun i _ _ ↦ by simp

theorem mapIdx_eq_map {α β : Type} (h : α → β) (l : List α) :
    (l.mapIdx fun _ a ↦ h a) = l.map h :=
  List.ext_getElem (by simp) fun i _ _ ↦ by simp

/-- The place in a row. -/
def rowPosition (i : Nat) : Position := .ofInts (100 + i * 300 : Nat) (200 : Nat)

/-- The nodes of an order in a row. -/
def inRow (nodes : List Node) : List Node := nodes.mapIdx fun i n ↦ n.moveTo (rowPosition i)

theorem placeInRow_map_moved (g : Graph) : g.placeInRow.map Placed.moved = inRow g.order :=
  map_mapIdx _ _ _

theorem inRow_map_id (nodes : List Node) : (inRow nodes).map Node.id = nodes.map Node.id := by
  rw [inRow, map_mapIdx]
  simp only [Node.moveTo_id]
  exact mapIdx_eq_map Node.id nodes

theorem inRow_inRow (nodes : List Node) : inRow (inRow nodes) = inRow nodes := by
  rw [inRow, inRow, List.mapIdx_mapIdx]
  simp only [Function.comp_def, Node.moveTo_moveTo]

/-! ## The columns -/

/-- The place of an id in its column, which holds the ids of its level in the order of the
nodes. -/
def columnPosition (g : Digraph Text) (v : Text) : Position :=
  let group := g.vertices.filter fun u ↦ g.level u = g.level v
  let offset := if 1 < group.length then 0 else 50
  .ofInts (100 + g.level v * 300 : Nat) (100 + group.idxOf v * 150 + offset : Nat)

/-- The nodes of a canvas in columns. -/
def inColumns (g : Digraph Text) (nodes : List Node) : List Node :=
  nodes.map fun n ↦ n.moveTo (columnPosition g n.id)

theorem levelGroup_leveled (g : Graph) (level : Nat) :
    levelGroup g.leveled level = g.digraph.vertices.filter fun v ↦ g.digraph.level v = level := by
  rw [levelGroup, leveled, List.filter_map, List.map_map, digraph, List.filter_map]
  rfl

theorem placeInColumns_map_moved (g : Graph) :
    g.placeInColumns.map Placed.moved = inColumns g.digraph g.nodes := by
  simp only [placeInColumns, levelGroup_leveled]
  rw [leveled, List.map_map, List.map_map]
  rfl

theorem inColumns_map_id (g : Digraph Text) (nodes : List Node) :
    (inColumns g nodes).map Node.id = nodes.map Node.id := by
  rw [inColumns, List.map_map]
  simp only [Function.comp_def, Node.moveTo_id]

theorem inColumns_inColumns (g : Digraph Text) (nodes : List Node) :
    inColumns g (inColumns g nodes) = inColumns g nodes := by
  rw [inColumns, inColumns, List.map_map]
  simp only [Function.comp_def, Node.moveTo_id, Node.moveTo_moveTo]

/-! ## Again -/

theorem layout_eq (g : Graph) (mode : Text) :
    g.layout mode = if mode = ExecutionMode.sequential.name then inRow g.order
      else inColumns g.digraph g.nodes := by
  rw [layout, place]
  split
  · exact g.placeInRow_map_moved
  · exact g.placeInColumns_map_moved

theorem layout_again (g : Graph) (mode : Text) :
    (⟨g.layout mode, g.edges⟩ : Graph).layout mode = g.layout mode := by
  rw [layout_eq, layout_eq]
  split
  · rw [order_eq_self (inRow_map_id g.order), inRow_inRow]
  · have hdigraph : (⟨inColumns g.digraph g.nodes, g.edges⟩ : Graph).digraph = g.digraph :=
      congrArg₂ Digraph.mk (inColumns_map_id g.digraph g.nodes) rfl
    rw [hdigraph, inColumns_inColumns]

/-- **Sorting and laying out again changes nothing**, and what keeps a layout from being handed out
is the same the second time. -/
theorem order_and_layout_idem (g : Graph) (mode : Text) :
    (⟨g.order, g.edges⟩ : Graph).order = g.order ∧
      (⟨g.layout mode, g.edges⟩ : Graph).layout mode = g.layout mode ∧
      (⟨g.layout mode, g.edges⟩ : Graph).layoutFault? mode = g.layoutFault? mode := by
  refine ⟨order_eq_self rfl, g.layout_again mode, ?_⟩
  rw [layoutFault?, layoutFault?, layout_again]

end Graph

end AgentFlow
