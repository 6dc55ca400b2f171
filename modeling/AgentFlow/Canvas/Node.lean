import AgentFlow.Step.Loop
import AgentFlow.Step.Target
import AgentFlow.Step.Timeout

/-!
# Nodes

A node of the canvas: an agent with its configuration, or one of the markers around agents. Nodes
are known by their ids, which nothing keeps apart, so a canvas may hold several nodes of one id.

Older payloads put the configuration of an agent next to the id instead of under `data`;
`Node.liftData` moves it there before the node is read.
-/

namespace AgentFlow

/-! ## Choices -/

/-- What a node stands for. -/
inductive NodeKind where
  /-- An agent, the only kind that is run. -/
  | agent
  /-- What starts the workflow. -/
  | trigger
  /-- A branching point. -/
  | condition
  /-- A group that is run side by side. -/
  | parallel
  deriving DecidableEq

/-- The name of a kind. -/
def NodeKind.name : NodeKind → String
  | .agent => "agent"
  | .trigger => "trigger"
  | .condition => "condition"
  | .parallel => "parallel"

/-- The kind of a name. -/
def NodeKind.ofName? (s : Text) : Option NodeKind :=
  [NodeKind.agent, .trigger, .condition, .parallel].find? (·.name = s)

/-- How far a node is configured, as the canvas shows it. -/
inductive NodeStatus where
  /-- Configured. -/
  | configured
  /-- Not configured. -/
  | unconfigured
  /-- Faulty. -/
  | error
  /-- Configured and checked. -/
  | valid
  deriving DecidableEq

/-- The name of a status. -/
def NodeStatus.name : NodeStatus → String
  | .configured => "configured"
  | .unconfigured => "unconfigured"
  | .error => "error"
  | .valid => "valid"

/-- The status of a name. -/
def NodeStatus.ofName? (s : Text) : Option NodeStatus :=
  [NodeStatus.configured, .unconfigured, .error, .valid].find? (·.name = s)

/-! ## Types -/

/-- A place on the canvas. -/
structure Position where
  /-- The distance from the left. -/
  x : Binary64
  /-- The distance from the top. -/
  y : Binary64
  deriving DecidableEq

/-- The configuration of a node. -/
structure NodeData where
  /-- The canister of the agent. -/
  canisterId : Option Text
  /-- The name of the agent. -/
  agentName : Text
  /-- The template of the input. -/
  inputTemplate : Text
  /-- Whether a person has to approve the run. -/
  requiresApproval : Bool
  /-- Whether a failed run is tried again. -/
  retryOnFailure : Bool
  /-- The timeout of a run. -/
  timeout : Option Timeout
  /-- The description on the canvas. -/
  description : Option Text
  /-- The icon on the canvas. -/
  icon : Option Text
  /-- The status on the canvas. -/
  status : NodeStatus
  /-- The errors shown on the canvas. -/
  validationErrors : List Text
  /-- The configuration of the agent, unread; null if there is none. -/
  agentConfig : Json
  /-- The configuration of the trigger, unread. -/
  triggerConfig : Option Fields
  /-- What is called, if not the agent itself. -/
  stepTarget : Option StepTarget
  /-- How often the step is run. -/
  loopConfig : Option Loop
  deriving DecidableEq

/-- A node of the canvas. -/
structure Node where
  /-- The id by which edges name the node. -/
  id : Text
  /-- What the node stands for. -/
  kind : NodeKind
  /-- Its place. -/
  position : Position
  /-- Its configuration. -/
  data : NodeData
  deriving DecidableEq

/-- The origin of the canvas. -/
def Position.origin : Position := ⟨.zero, .zero⟩

/-- The place with whole coordinates. -/
def Position.ofInts (x y : Int) : Position := ⟨.ofInt x, .ofInt y⟩

/-- The configuration of a node that has none. -/
def NodeData.empty : NodeData where
  canisterId := none
  agentName := ""
  inputTemplate := ""
  requiresApproval := false
  retryOnFailure := false
  timeout := none
  description := none
  icon := none
  status := .unconfigured
  validationErrors := []
  agentConfig := .null
  triggerConfig := none
  stepTarget := none
  loopConfig := none

namespace Node

/-- The canister of a node's agent. -/
def canisterId (n : Node) : Option Text := n.data.canisterId

/-- The name under which the canvas shows a node. -/
def displayName (n : Node) : Text := n.data.agentName

/-- The canister of a node's agent, unless it is missing or blank. -/
def canister? (n : Node) : Option Text := n.canisterId.filter fun c ↦ !isBlankText c

/-- The node at another place. -/
def moveTo (n : Node) (p : Position) : Node := { n with position := p }

/-- Whether a node is an agent with a canister. -/
def isConfiguredAgent (n : Node) : Bool := n.kind = .agent && n.canister?.isSome

end Node

/-- Whether some node is an agent with a canister. -/
def hasConfiguredAgent (nodes : List Node) : Bool := nodes.any Node.isConfiguredAgent

/-! ## Reading -/

namespace Position

/-- The fields of a place. -/
def record : Record Position :=
  Position.mk <$> .optional .x .zero Reading.number <*> .optional .y .zero Reading.number

/-- Reads a place. -/
def read : Json → Reading Position := record.read

end Position

namespace NodeData

/-- The fields of a configuration. -/
def record : Record NodeData :=
  NodeData.mk <$> .optional .agentCanisterId none (Reading.nullable Reading.text)
    <*> .optional .agentName "" Reading.text
    <*> .optional .inputTemplate "" Reading.text
    <*> .optional .requiresApproval false Reading.flag
    <*> .optional .retryOnFailure false Reading.flag
    <*> .optional .timeout none (Reading.nullable Timeout.read)
    <*> .optional .description none (Reading.nullable Reading.text)
    <*> .optional .icon none (Reading.nullable Reading.text)
    <*> .optional .status .unconfigured (Reading.choice NodeStatus.ofName? .notChoice)
    <*> .optional .validationErrors [] (Reading.list Reading.text)
    <*> .optional .agentConfig .null Reading.anything
    <*> .optional .triggerConfig none (Reading.nullable Reading.mapping)
    <*> .optional .stepTarget none (Reading.nullable StepTarget.read)
    <*> .optional .loopConfig none (Reading.nullable Loop.read)

/-- Reads a configuration. -/
def read : Json → Reading NodeData := record.read

end NodeData

namespace Node

/-- The fields that may stand next to the id instead of under `data`. -/
def liftedKeys : List Key :=
  [.agentCanisterId, .agentName, .inputTemplate, .requiresApproval, .retryOnFailure, .timeout,
   .triggerConfig, .stepTarget, .loopConfig]

/-- Moves the configuration that stands next to the id under `data`, unless there is data already.
Only canvas spellings are moved. -/
def liftData : Json → Json
  | .object fields =>
    let lifted := liftedKeys.filterMap fun k ↦ (Fields.get? fields k.wire).map fun v ↦ (k.wire, v)
    if (Fields.get? fields Key.data.wire).any Json.isTruthy ∨ lifted.isEmpty then .object fields
    else .object (Fields.put fields Key.data.wire (.object lifted))
  | v => v

/-- The fields of a node. -/
def record : Record Node :=
  Node.mk <$> .required .id Reading.text
    <*> .optional .type .agent (Reading.choice NodeKind.ofName? .notChoice)
    <*> .optional .position .origin Position.read
    <*> .optional .data .empty NodeData.read

/-- Reads a node. -/
def read (v : Json) : Reading Node := record.read (liftData v)

end Node

/-! ## Writing -/

/-- Writes a place. -/
def Position.write (p : Position) : Json := .record .wire [(.x, .float p.x), (.y, .float p.y)]

/-- Writes a configuration. -/
def NodeData.write (s : Spelling) (d : NodeData) : Json :=
  .record s
    [(.agentCanisterId, .ofOption .string d.canisterId),
     (.agentName, .string d.agentName),
     (.inputTemplate, .string d.inputTemplate),
     (.requiresApproval, .bool d.requiresApproval),
     (.retryOnFailure, .bool d.retryOnFailure),
     (.timeout, .ofOption Timeout.write d.timeout),
     (.description, .ofOption .string d.description),
     (.icon, .ofOption .string d.icon),
     (.status, .string d.status.name),
     (.validationErrors, .ofList .string d.validationErrors),
     (.agentConfig, d.agentConfig.finite),
     (.triggerConfig, .ofOption Fields.write d.triggerConfig),
     (.stepTarget, .ofOption (StepTarget.write s) d.stepTarget),
     (.loopConfig, .ofOption (Loop.write s) d.loopConfig)]

/-- What keeps a configuration from being written. -/
def NodeData.writeFault? (d : NodeData) : Option WriteFault :=
  (d.agentConfig.writeFault?.or (d.triggerConfig.bind Fields.writeFault?)).or
    (d.stepTarget.bind StepTarget.choiceFault?)

/-- Whether the free values of a node are copied. -/
def Node.isCopied (n : Node) : Bool :=
  n.data.agentConfig.isCopied
    && n.data.triggerConfig.all (fun fields ↦ (Json.object fields).isCopied)
    && n.data.stepTarget.all StepTarget.isCopied

/-- Writes a node. -/
def Node.write (s : Spelling) (n : Node) : Json :=
  .record s
    [(.id, .string n.id), (.type, .string n.kind.name), (.position, n.position.write),
     (.data, n.data.write s)]

/-- What keeps a node from being written. -/
def Node.writeFault? (n : Node) : Option WriteFault := n.data.writeFault?

end AgentFlow
