import AgentFlow.Condition
import AgentFlow.Digest.Sha256
import AgentFlow.Json.Printer
import AgentFlow.Step.Loop
import AgentFlow.Step.Target
import AgentFlow.Step.Timeout

/-!
# Schedules

The compiled form of a workflow: steps, known by their place in the list, and connections between
two places. The runtime takes a schedule as JSON in which the options that a step does not use are
left out. The SHA-256 of the canonical text of that JSON is the fingerprint of the schedule.
-/

namespace AgentFlow

/-! ## Types -/

/-- A compiled unit of work. -/
structure Step where
  /-- The canister of the agent. -/
  canisterId : Text
  /-- The name of the agent. -/
  agentName : Text
  /-- The template of the input. -/
  inputTemplate : Text
  /-- Whether a person has to approve the run. -/
  requiresApproval : Bool
  /-- Whether a failed run is tried again. -/
  retryOnFailure : Bool
  /-- The timeout of a run. -/
  timeout : Option Timeout
  /-- The configuration of the trigger, unread. -/
  triggerConfig : Option Fields
  /-- What is called, if not the agent itself. -/
  stepTarget : Option StepTarget
  /-- How often the step is run. -/
  loopConfig : Option Loop
  deriving DecidableEq

/-- A connection between two steps. -/
structure Connection where
  /-- The place of the step that is left. -/
  source : Nat
  /-- The place of the step that is entered. -/
  target : Nat
  /-- When the connection is followed. -/
  condition : Condition
  deriving DecidableEq

/-- A compiled workflow. -/
structure Schedule where
  /-- The steps in order. -/
  steps : List Step
  /-- The connections in order. -/
  connections : List Connection
  deriving DecidableEq

/-- Whether a schedule has no steps. -/
def Schedule.isEmpty (s : Schedule) : Bool := s.steps.isEmpty

/-! ## Payloads -/

namespace Step

/-- The fields of a step. -/
def record : Record Step :=
  Step.mk <$> .required .agentCanisterId Reading.text
    <*> .optional .agentName "" Reading.text
    <*> .optional .inputTemplate "" Reading.text
    <*> .optional .requiresApproval false Reading.flag
    <*> .optional .retryOnFailure false Reading.flag
    <*> .optional .timeout none (Reading.nullable Timeout.read)
    <*> .optional .triggerConfig none (Reading.nullable Reading.mapping)
    <*> .optional .stepTarget none (Reading.nullable StepTarget.read)
    <*> .optional .loopConfig none (Reading.nullable Loop.read)

/-- Reads a step. -/
def read : Json → Reading Step := record.read

/-- The fields that a step always has. -/
def requiredFields (step : Step) : List (Key × Json) :=
  [(.agentCanisterId, .string step.canisterId), (.agentName, .string step.agentName),
   (.inputTemplate, .string step.inputTemplate), (.requiresApproval, .bool step.requiresApproval),
   (.retryOnFailure, .bool step.retryOnFailure)]

/-- The fields for the options of a step, null where an option is not used. -/
def optionalFields (s : Spelling) (step : Step) : List (Key × Json) :=
  [(.timeout, .ofOption Timeout.write step.timeout),
   (.triggerConfig, .ofOption Fields.write step.triggerConfig),
   (.stepTarget, .ofOption (StepTarget.write s) step.stepTarget),
   (.loopConfig, .ofOption (Loop.write s) step.loopConfig)]

/-- The fields of a step with their values. -/
def fields (s : Spelling) (step : Step) : List (Key × Json) :=
  step.requiredFields ++ step.optionalFields s

/-- Writes a step. -/
def write (s : Spelling) (step : Step) : Json := .record s (step.fields s)

/-- Whether the target of a step is copied when the step is made. -/
def isCopied (step : Step) : Bool := step.stepTarget.all StepTarget.isCopied

/-- What keeps a step from being written. -/
def writeFault? (step : Step) : Option WriteFault :=
  (step.triggerConfig.bind Fields.writeFault?).or (step.stepTarget.bind StepTarget.choiceFault?)

/-- Writes a step for the runtime, without the options that it does not use. -/
def runtime (step : Step) : Json :=
  .record .wire (step.requiredFields ++ (step.optionalFields .wire).filter fun f ↦ f.2 ≠ .null)

end Step

namespace Connection

/-- The fields of a connection. -/
def record : Record Connection :=
  Connection.mk <$> .required .sourceStepIndex Reading.natural
    <*> .required .targetStepIndex Reading.natural
    <*> .optional .condition .alwaysTrue Condition.read

/-- Reads a connection. -/
def read : Json → Reading Connection := record.read

/-- Writes a connection. -/
def write (s : Spelling) (c : Connection) : Json :=
  .record s
    [(.sourceStepIndex, .int c.source), (.targetStepIndex, .int c.target),
     (.condition, c.condition.write s)]

/-- What keeps a connection from being written. -/
def writeFault? (c : Connection) : Option WriteFault := c.condition.writeFault?

/-- Writes a connection for the runtime. -/
def runtime (c : Connection) : Json := c.write .wire

end Connection

namespace Schedule

/-- The fields of a schedule. -/
def record : Record Schedule :=
  Schedule.mk <$> .optional .steps [] (Reading.list Step.read)
    <*> .optional .connections [] (Reading.list Connection.read)

/-- Reads a schedule. -/
def read : Json → Reading Schedule := record.read

/-- Writes a schedule. -/
def write (s : Spelling) (schedule : Schedule) : Json :=
  .record s
    [(.steps, .ofList (Step.write s) schedule.steps),
     (.connections, .ofList (Connection.write s) schedule.connections)]

/-- What keeps a schedule from being written, steps first. -/
def writeFault? (schedule : Schedule) : Option WriteFault :=
  (schedule.steps.findSome? Step.writeFault?).or
    (schedule.connections.findSome? Connection.writeFault?)

/-- What keeps a compiled schedule from being handed out: its steps are copied from a canvas. -/
def copiedFault? (schedule : Schedule) : Option WriteFault :=
  copyFault? (schedule.steps.all Step.isCopied)

/-- What keeps a compiled schedule from being written. -/
def compiledFault? (schedule : Schedule) : Option WriteFault :=
  schedule.copiedFault?.or schedule.writeFault?

/-- The fields of a schedule for the runtime. -/
def runtimeFields (schedule : Schedule) : List (Key × Json) :=
  [(.steps, .ofList Step.runtime schedule.steps),
   (.connections, .ofList Connection.runtime schedule.connections)]

/-- Writes a schedule for the runtime. -/
def runtime (schedule : Schedule) : Json := .record .wire schedule.runtimeFields

/-! ## Fingerprint -/

/-- The text that is hashed. -/
def canonicalText (schedule : Schedule) : String := schedule.runtime.canonical

/-- The hash by which a stored schedule is checked. -/
def fingerprint (schedule : Schedule) : String := sha256Hex schedule.canonicalText

/-- Whether a schedule has so many places that some would be numbers with too many digits for a
text. No list of steps is that long. -/
def hasLongPlaces (schedule : Schedule) : Bool := Json.longInteger < schedule.steps.length

/-- What keeps a compiled schedule from being written as a text, whichever of its places the
connections name. -/
def compiledTextFault? (schedule : Schedule) : Option WriteFault :=
  (textFault? schedule.compiledFault? schedule.runtime).or
    (if schedule.hasLongPlaces then some .longInteger else none)

/-- The fingerprint of a compiled schedule that can be written as a text. -/
def checkedFingerprint (schedule : Schedule) : Except WriteFault String :=
  match schedule.compiledTextFault? with
  | some fault => .error fault
  | none => .ok schedule.fingerprint

end Schedule

end AgentFlow
