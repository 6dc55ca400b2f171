import AgentFlow.Canvas.ExecutionMode
import AgentFlow.Canvas.Notices
import AgentFlow.Principal.Basic
import AgentFlow.Settings.Basic
import AgentFlow.Validation.Report

/-!
# Validation

A canvas has three kinds of problems: an agent without a canister, a canister that is not given by a
sound principal (where the settings ask for that, and on nodes of every kind), and a cycle. It has
three kinds of shortcomings: a node with an empty input template, a node that no edge touches (in
the sequential mode, where there are several nodes), and its size. Problems make the canvas invalid
and shortcomings do not.
-/

namespace AgentFlow

/-! ## Findings -/

/-- What makes a canvas invalid. -/
inductive Problem where
  /-- An agent has no canister. -/
  | missingCanister (node : Node)
  /-- A canister is not given by a sound principal. -/
  | unsoundCanister (node : Node) (canister : Text)
  /-- There is a cycle. -/
  | cycle
  deriving DecidableEq

/-- What could be better about a canvas. -/
inductive Shortcoming where
  /-- The input template of a node is empty. -/
  | emptyTemplate (node : Node)
  /-- No edge touches a node. -/
  | unconnected (node : Node)
  /-- There are many nodes. -/
  | large
  deriving DecidableEq

/-- How a problem is reported. -/
def Problem.issue : Problem → Issue
  | .missingCanister n =>
    ⟨some n.id, none, .error, "Agent \"" ++ n.displayName ++ "\" is missing a canister ID",
      some "Configure the agent by selecting a canister ID from available agents"⟩
  | .unsoundCanister n canister =>
    ⟨some n.id, none, .error, "Invalid canister ID format: " ++ canister,
      some "Enter a valid Internet Computer Principal ID"⟩
  | .cycle =>
    ⟨none, none, .error, "Workflow contains circular dependencies",
      some "Remove connections that create loops in the workflow"⟩

/-- How a shortcoming is reported. -/
def Shortcoming.advice : Shortcoming → Advice
  | .emptyTemplate n =>
    ⟨some n.id, .bestPractice, "Agent \"" ++ n.displayName ++ "\" has an empty input template",
      "Provide an input template to define how data flows to this agent"⟩
  | .unconnected n =>
    ⟨some n.id, .performance, "Agent \"" ++ n.displayName ++ "\" is not connected to the workflow",
      "Connect this agent to other agents to include it in the execution flow"⟩
  | .large =>
    ⟨none, .performance, "Large workflow may impact execution performance",
      "Consider breaking this into smaller sub-workflows"⟩

/-! ## Checks -/

/-- The problem of a node, if it has one. -/
def Node.problem? (settings : Settings) (n : Node) : Option Problem :=
  match n.canister? with
  | none => if n.kind = .agent then some (.missingCanister n) else none
  | some canister =>
    if settings.strictPrincipals ∧ !Principal.isValid canister then
      some (.unsoundCanister n canister)
    else none

namespace Graph

/-- Whether an edge touches an id. -/
def touches (g : Graph) (id : Text) : Bool := g.edges.any fun e ↦ e.source = id || e.target = id

/-- The nodes that no edge touches; a node alone needs none. -/
def unconnected (g : Graph) : List Node :=
  if g.nodes.length ≤ 1 then [] else g.nodes.filter fun n ↦ !g.touches n.id

/-- What makes a canvas invalid. -/
def problems (settings : Settings) (g : Graph) : List Problem :=
  g.nodes.filterMap (Node.problem? settings) ++ (if g.hasCycle then [.cycle] else [])

/-- What could be better about a canvas, for an execution mode given by name. -/
def shortcomings (settings : Settings) (mode : Text) (g : Graph) : List Shortcoming :=
  (g.nodes.filter fun n ↦ isBlankText n.data.inputTemplate).map .emptyTemplate
    ++ (if mode = ExecutionMode.sequential.name then g.unconnected.map .unconnected else [])
    ++ (if settings.largeWorkflowThreshold < g.nodes.length then [.large] else [])

/-- The report on a canvas, for an execution mode given by name. -/
def report (settings : Settings) (mode : Text) (g : Graph) : Report where
  isValid := (g.problems settings).isEmpty
  errors := (g.problems settings).map Problem.issue
  warnings := (g.shortcomings settings mode).map Shortcoming.advice

/-- The report together with the notices. -/
def validate (settings : Settings) (mode : Text) (g : Graph) : Noted Report :=
  ⟨g.report settings mode, g.cycleNotices⟩

end Graph

end AgentFlow
