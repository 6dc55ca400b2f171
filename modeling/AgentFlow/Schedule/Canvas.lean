import AgentFlow.Canvas.Graph
import AgentFlow.Notice
import AgentFlow.Schedule.Basic
import AgentFlow.Text.Lowercase

/-!
# Drawing a schedule

The way back from a schedule to a canvas that can be edited. Step `i` becomes the agent node
`step-i`, and the nodes stand in one row from left to right. Connection `i` becomes the edge
`edge-i` with the condition of the connection; a connection that names a step that does not exist is
passed over. A schedule without connections is drawn as a chain from the first step to the last.

Ids and places are made anew, so what a drawing keeps of a canvas that was compiled is its steps and
their connections.

A step is described before what it calls is copied, and either can keep the drawing from being
built: a number of runs may have too many digits for the description, and a free value too many
levels for a copy (`Schedule.buildFault?`).
-/

namespace AgentFlow

/-! ## Icons and descriptions -/

/-- The words that give an agent its icon; the first row with a word in the name counts. -/
def iconWords : List (List String × String) :=
  [(["customer", "support"], "👥"), (["data", "process"], "📊"), (["email", "notification"], "📧"),
   (["validation", "verify"], "✅"), (["ai", "assistant"], "🤖"), (["report", "analytics"], "📈"),
   (["integration", "api"], "🔗"), (["security", "auth"], "🔒"), (["payment", "billing"], "💳"),
   (["monitor", "health"], "🏥")]

/-- The icon of an agent, in any case of its name. -/
def agentIcon (name : Text) : String :=
  let letters := lowercase name
  match iconWords.find? fun row ↦ row.1.any fun word ↦ occursIn word letters with
  | some row => row.2
  | none => "⚙️"

/-- What the description of a step says about its loop. -/
def Loop.note : Loop → Text
  | .forEach loop => " (Loop: for each in " ++ loop.source ++ ")"
  | .whileHolds loop => " (Loop: while " ++ loop.condition ++ ")"
  | .repeated loop => " (Loop: repeat " ++ Text.ofChars (intDigits loop.count) ++ " times)"
  | .once => ""

/-- Whether a loop has a number of runs with too many digits for a text. -/
def Loop.hasLongCount : Loop → Bool
  | .repeated loop => Json.longInteger ≤ loop.count.natAbs
  | _ => false

namespace Step

/-- The icon of a step. -/
def icon (step : Step) : String :=
  match step.stepTarget with
  | some (.workflow _) => "🔄"
  | _ => agentIcon step.agentName

/-- What the description of a step says about what is called. -/
def calleeNote (step : Step) : Text :=
  match step.stepTarget with
  | some (.workflow call) => "Sub-workflow: " ++ call.workflowId
  | _ => "Agent: " ++ step.agentName

/-- The description of a step. -/
def description (step : Step) : Text :=
  step.calleeNote ++ (step.loopConfig.map Loop.note).getD ""

/-- Whether the loop of a step keeps it from being described. -/
def hasLongCount (step : Step) : Bool := step.loopConfig.any Loop.hasLongCount

end Step

/-! ## Nodes -/

/-- The id of the node for the step at a place. -/
def stepId (index : Nat) : String := "step-" ++ toString index

/-- The id of the edge for the connection at a place. -/
def edgeId (index : Nat) : String := "edge-" ++ toString index

/-- The node for the step at a place. -/
def Step.node (index : Nat) (step : Step) : Node where
  id := stepId index
  kind := .agent
  position := .ofInts (100 + index * 300) 100
  data :=
    { canisterId := some step.canisterId
      agentName := step.agentName
      inputTemplate := step.inputTemplate
      requiresApproval := step.requiresApproval
      retryOnFailure := step.retryOnFailure
      timeout := step.timeout
      description := some step.description
      icon := some step.icon
      status := if step.canisterId ≠ "" ∨ step.stepTarget.isSome then .configured else .unconfigured
      validationErrors := []
      agentConfig := .null
      triggerConfig := step.triggerConfig
      stepTarget := step.stepTarget
      loopConfig := step.loopConfig }

/-- What keeps the node for a step from being built: the step is described first, then what it calls
is copied. -/
def Step.nodeFault? (step : Step) : Option WriteFault :=
  if step.hasLongCount then some .longInteger else copyFault? step.isCopied

/-! ## Edges -/

namespace Connection

/-- Whether both steps of a connection exist. -/
def inRange (steps : Nat) (c : Connection) : Bool := c.source < steps && c.target < steps

/-- The edge for the connection at a place. -/
def edge (index : Nat) (c : Connection) : Edge where
  id := edgeId index
  source := stepId c.source
  target := stepId c.target
  kind := if c.condition.kind = .always then .default else .conditional
  animated := false
  data := some ⟨some c.condition, some c.condition.label⟩

end Connection

/-- The edge from the step at a place to the next one. -/
def chainEdge (index : Nat) : Edge where
  id := edgeId index
  source := stepId index
  target := stepId (index + 1)
  kind := .default
  animated := false
  data := some ⟨some .alwaysTrue, none⟩

namespace Schedule

/-- The nodes of the drawing. -/
def drawnNodes (s : Schedule) : List Node := s.steps.mapIdx Step.node

/-- The edges of the drawing. -/
def drawnEdges (s : Schedule) : List Edge :=
  if s.connections.isEmpty then (List.range (s.steps.length - 1)).map chainEdge
  else (s.connections.zipIdx.filter fun p ↦ p.1.inRange s.steps.length).map fun p ↦ p.1.edge p.2

/-- The drawing of a schedule. -/
def canvas (s : Schedule) : Graph := ⟨s.drawnNodes, s.drawnEdges⟩

/-- Whether the condition of a connection is copied, if the connection is drawn. -/
def drawsCondition (s : Schedule) (c : Connection) : Bool :=
  !c.inRange s.steps.length || c.condition.isCopied

/-- What keeps all nodes of the drawing from being built. -/
def nodesFault? (s : Schedule) : Option WriteFault := s.steps.findSome? Step.nodeFault?

/-- What keeps the drawing of a schedule from being built: nodes first, then edges. -/
def buildFault? (s : Schedule) : Option WriteFault :=
  s.nodesFault?.or (copyFault? (s.connections.all s.drawsCondition))

/-- What keeps the drawing of a schedule from being handed out: it is built, and then written. -/
def drawFault? (s : Schedule) : Option WriteFault := s.buildFault?.or s.canvas.writeFault?

/-- The connections that are drawn before one whose condition cannot be copied. -/
def reached (s : Schedule) : List Connection :=
  if s.nodesFault?.isNone then s.connections.takeWhile s.drawsCondition else []

/-- What is reported when a schedule is drawn. -/
def canvasNotices (s : Schedule) : List Notice :=
  (s.reached.filter fun c ↦ !c.inRange s.steps.length).map fun c ↦
    .connectionSkipped c.source c.target s.steps.length

/-- The drawing together with what is reported. -/
def draw (s : Schedule) : Noted Graph := ⟨s.canvas, s.canvasNotices⟩

end Schedule

end AgentFlow
