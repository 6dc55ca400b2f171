import AgentFlow.Run.Readiness

/-!
# Execution requests

A schedule together with the input that it is to be run on. A request is made from a canvas that is
ready; validation has no say in it.
-/

namespace AgentFlow

/-- A schedule with its input. -/
structure ExecutionRequest where
  /-- The input of the first step. -/
  input : Text
  /-- The steps in order. -/
  steps : List Step
  /-- The connections in order. -/
  connections : List Connection
  deriving DecidableEq

namespace ExecutionRequest

/-- The schedule of a request. -/
def schedule (request : ExecutionRequest) : Schedule := ⟨request.steps, request.connections⟩

/-! ## Payloads -/

/-- The fields of a request. -/
def record : Record ExecutionRequest :=
  ExecutionRequest.mk <$> .required .input Reading.text
    <*> .optional .steps [] (Reading.list Step.read)
    <*> .optional .connections [] (Reading.list Connection.read)

/-- Reads a request. -/
def read : Json → Reading ExecutionRequest := record.read

/-- Writes a request. -/
def write (s : Spelling) (request : ExecutionRequest) : Json :=
  .record s
    [(.input, .string request.input), (.steps, .ofList (Step.write s) request.steps),
     (.connections, .ofList (Connection.write s) request.connections)]

/-- Writes a request for the runtime. -/
def runtime (request : ExecutionRequest) : Json :=
  .record .wire ((.input, .string request.input) :: request.schedule.runtimeFields)

end ExecutionRequest

/-! ## Making a request -/

namespace Graph

/-- Checks that a canvas may be run on an input, and gives the input. -/
def checkedInput (input : Option Text) (g : Graph) : Except Unready Text :=
  if !isGiven input then .error .noInput else g.checkReady.map fun _ ↦ input.getD ""

/-- The request to run a canvas on an input. -/
def request (picker : Picker) (input : Option Text) (g : Graph) :
    Except Unready ExecutionRequest := do
  let text ← g.checkedInput input
  let schedule ← g.runnable picker
  .ok ⟨text, schedule.steps, schedule.connections⟩

/-- What is reported when a request is made. -/
def requestNotices (picker : Picker) (input : Option Text) (g : Graph) : List Notice :=
  match g.checkedInput input with
  | .ok _ => g.runnableNotices picker
  | .error _ => []

end Graph

end AgentFlow
