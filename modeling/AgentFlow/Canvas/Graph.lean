import AgentFlow.Canvas.Edge
import AgentFlow.Canvas.Node

/-!
# Canvas graphs

The whole canvas: its nodes and its edges, each in the order in which they were added.
-/

namespace AgentFlow

/-- The nodes and edges of a canvas. -/
structure Graph where
  /-- The nodes in order. -/
  nodes : List Node
  /-- The edges in order. -/
  edges : List Edge
  deriving DecidableEq

/-- The canvas without nodes and edges. -/
def Graph.empty : Graph := ⟨[], []⟩

/-- The last node of an id, which is the one that counts. -/
def lastNode? (nodes : List Node) (id : Text) : Option Node := nodes.findRev? fun n ↦ n.id = id

/-! ## Payloads -/

namespace Graph

/-- The fields of a canvas. -/
def record : Record Graph :=
  Graph.mk <$> .optional .nodes [] (Reading.list Node.read)
    <*> .optional .edges [] (Reading.list Edge.read)

/-- Reads a canvas. -/
def read : Json → Reading Graph := record.read

/-- Writes a canvas. -/
def write (s : Spelling) (g : Graph) : Json :=
  .record s [(.nodes, .ofList (Node.write s) g.nodes), (.edges, .ofList (Edge.write s) g.edges)]

/-- Whether the free values of a canvas are copied. -/
def isCopied (g : Graph) : Bool := g.nodes.all Node.isCopied && g.edges.all Edge.isCopied

/-- What keeps a canvas from being written, nodes first. -/
def writeFault? (g : Graph) : Option WriteFault :=
  (g.nodes.findSome? Node.writeFault?).or (g.edges.findSome? Edge.writeFault?)

end Graph

end AgentFlow
