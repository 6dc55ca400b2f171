import AgentFlow.Canvas.Notices
import AgentFlow.Schedule.Basic

/-!
# Compiling a canvas

All nodes are ordered topologically, those that are eligible are kept in that order, and the place
of a node among them is the place of its step. An edge between two compiled nodes becomes a
connection between their places with the normal form of its condition; every other edge is dropped.
No canvas is malformed: one without eligible nodes gives the empty schedule, and nodes on or behind
a cycle are left out. What a step calls is copied from its node, though, and the schedule is not
handed out if that has too many levels (`Schedule.copiedFault?`).
-/

namespace AgentFlow

/-- The step that runs a node. -/
def Node.step (n : Node) : Step where
  canisterId := n.canisterId.getD ""
  agentName := n.data.agentName
  inputTemplate := n.data.inputTemplate
  requiresApproval := n.data.requiresApproval
  retryOnFailure := n.data.retryOnFailure
  timeout := n.data.timeout
  triggerConfig := n.data.triggerConfig
  stepTarget := n.data.stepTarget
  loopConfig := n.data.loopConfig

/-- The connection that an edge becomes when the nodes with these ids are compiled, in order. -/
def Edge.connection? (compiled : List Text) (e : Edge) : Option Connection := do
  let source ← compiled.idxOf? e.source
  let target ← compiled.idxOf? e.target
  some ⟨source, target, e.condition.normalized⟩

namespace Graph

/-- The nodes that are compiled, in the order of their steps. -/
def compiledNodes (r : Restriction) (g : Graph) : List Node := eligibleNodes r g.order

/-- The steps of the compiled canvas. -/
def steps (r : Restriction) (g : Graph) : List Step := (g.compiledNodes r).map Node.step

/-- The connections of the compiled canvas. -/
def connections (r : Restriction) (g : Graph) : List Connection :=
  let compiled := (g.compiledNodes r).map Node.id
  g.edges.filterMap (Edge.connection? compiled)

/-- The compiled canvas. -/
def compile (r : Restriction) (g : Graph) : Schedule := ⟨g.steps r, g.connections r⟩

/-! ## Notices -/

/-- What is reported about the choice of nodes. -/
def stepNotices (r : Restriction) (g : Graph) : List Notice :=
  g.orderNotices ++ (if g.order.length = g.nodes.length then [] else [.nodesLeftOut g.omitted])
    ++ rejectionNotices r g.order

/-- What is reported about the choice of nodes and edges. -/
def connectionNotices (r : Restriction) (g : Graph) : List Notice :=
  let compiled := (g.compiledNodes r).map Node.id
  g.stepNotices r ++ (g.edges.filter fun e ↦ (e.connection? compiled).isNone).map .edgeDropped

/-- What is reported when a canvas is compiled, which ends early if a step cannot be copied. -/
def compileNotices (r : Restriction) (g : Graph) : List Notice :=
  if (g.steps r).all Step.isCopied then
    g.connectionNotices r ++
      [.compiled g.nodes.length g.edges.length (g.steps r).length (g.connections r).length]
  else g.stepNotices r

end Graph

end AgentFlow
