import AgentFlow.Payload.Scalar
import AgentFlow.Payload.Writing

/-!
# Step targets

A step calls one agent, by the canister that it lives in, or hands its input to a whole other
workflow.
-/

namespace AgentFlow

/-! ## Types -/

/-- A call of one agent. -/
structure AgentCall where
  /-- The canister of the agent. -/
  canisterId : Text
  /-- The configuration that is passed on unread; null if there is none. -/
  config : Json
  deriving DecidableEq

/-- A call of another workflow. -/
structure WorkflowCall where
  /-- The workflow that is called. -/
  workflowId : Text
  /-- How the input is handed on. -/
  inputMapping : Text
  deriving DecidableEq

/-- What a step calls. -/
inductive StepTarget where
  /-- One agent. -/
  | agent (call : AgentCall)
  /-- Another workflow. -/
  | workflow (call : WorkflowCall)
  deriving DecidableEq

/-! ## Payloads -/

namespace AgentCall

/-- The fields of a call of an agent. -/
def record : Record AgentCall :=
  AgentCall.mk <$> .required .agentCanisterId Reading.text
    <*> .optional .agentConfig .null Reading.anything

/-- Reads a call of an agent. -/
def read : Json → Reading AgentCall := record.read

/-- Writes a call of an agent. -/
def write (s : Spelling) (call : AgentCall) : Json :=
  .record s [(.agentCanisterId, .string call.canisterId), (.agentConfig, call.config.finite)]

end AgentCall

namespace WorkflowCall

/-- The fields of a call of a workflow. -/
def record : Record WorkflowCall :=
  WorkflowCall.mk <$> .required .agencyId Reading.text <*> .optional .inputMapping "" Reading.text

/-- Reads a call of a workflow. -/
def read : Json → Reading WorkflowCall := record.read

/-- Writes a call of a workflow. -/
def write (s : Spelling) (call : WorkflowCall) : Json :=
  .record s [(.agencyId, .string call.workflowId), (.inputMapping, .string call.inputMapping)]

end WorkflowCall

namespace StepTarget

/-- Reads the alternative that calls an agent. -/
def readAgent : Json → Reading StepTarget :=
  (StepTarget.agent <$> Record.required .agent AgentCall.read).read

/-- Reads the alternative that calls a workflow. -/
def readWorkflow : Json → Reading StepTarget :=
  (StepTarget.workflow <$> Record.required .agency WorkflowCall.read).read

/-- Reads a step target. -/
def read : Json → Reading StepTarget :=
  .oneOf [("AgentTarget", readAgent), ("NestedWorkflowTarget", readWorkflow)]

/-- Writes a step target. -/
def write (s : Spelling) : StepTarget → Json
  | .agent call => .record s [(.agent, call.write s)]
  | .workflow call => .record s [(.agency, call.write s)]

/-- Whether the free value of a step target is copied. -/
def isCopied : StepTarget → Bool
  | .agent call => call.config.isCopied
  | .workflow _ => true

/-- What keeps a step target from being written by itself. -/
def writeFault? : StepTarget → Option WriteFault
  | .agent call => call.config.writeFault?
  | .workflow _ => none

/-- What keeps a step target from being written as one of two alternatives. If neither can be
written, it is tried as a free value, which makes it a level of its own, and that fault counts. -/
def choiceFault? : StepTarget → Option WriteFault
  | .agent call => call.config.writeFault?.bind fun _ ↦ (call.config.freeFault? 1).map .free
  | .workflow _ => none

end StepTarget

end AgentFlow
