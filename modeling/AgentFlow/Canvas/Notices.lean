import AgentFlow.Canvas.Layout
import AgentFlow.Notice

/-!
# Notices about a canvas

What is reported when a canvas is put in order, laid out or searched for a cycle.
-/

namespace AgentFlow

namespace Graph

/-- What is reported about the topological order. -/
def orderNotices (g : Graph) : List Notice :=
  if g.order.length = g.nodes.length then [] else [.orderIncomplete g.omitted g.nodes.length]

/-- What is reported about the layout for an execution mode, given by name. -/
def layoutNotices (g : Graph) (mode : Text) : List Notice :=
  if mode = ExecutionMode.sequential.name then g.orderNotices else []

/-- What is reported about cycles. -/
def cycleNotices (g : Graph) : List Notice := (g.findCycle?.map Notice.cycleFound).toList

end Graph

end AgentFlow
