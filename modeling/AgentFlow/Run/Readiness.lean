import AgentFlow.Run.Picker
import AgentFlow.Schedule.Compile

/-!
# Readiness

What has to hold before a canvas is saved or run: it has nodes, some agent has a canister, and
something is left to execute once the picker has had its say. The further causes are those of saving
(a name, a report without errors) and of running (an input).
-/

namespace AgentFlow

/-- Why a canvas cannot be saved or run yet. -/
inductive Unready where
  /-- There are no nodes. -/
  | empty
  /-- No agent has a canister. -/
  | unconfigured
  /-- Nothing is left to execute. -/
  | nothingExecutable
  /-- The workflow has no name. -/
  | unnamed
  /-- There is no input. -/
  | noInput
  /-- Validation finds errors. -/
  | invalid (errors : Nat)
  deriving DecidableEq

/-- The wording of a cause. -/
def Unready.message : Unready → String
  | .empty => "Workflow is empty; add at least one agent"
  | .unconfigured => "Configure at least one agent with a canister ID"
  | .nothingExecutable => "No executable agents: check canister IDs and agent availability"
  | .unnamed => "Workflow name is required"
  | .noInput => "Execution input is required"
  | .invalid errors =>
    "Cannot save: workflow validation failed with " ++ toString errors ++ " errors"

/-- Whether a text is given and not blank. -/
def isGiven (text : Option Text) : Bool := text.any fun s ↦ !isBlankText s

namespace Graph

/-- Checks that a canvas has something to execute. -/
def checkReady (g : Graph) : Except Unready Unit :=
  if g.nodes.isEmpty then .error .empty
  else if !hasConfiguredAgent g.nodes then .error .unconfigured
  else .ok ()

/-- The schedule of a canvas, which must not be empty. -/
def runnable (picker : Picker) (g : Graph) : Except Unready Schedule :=
  let schedule := g.compile picker.restriction
  if schedule.isEmpty then .error .nothingExecutable else .ok schedule

/-- What is reported when the schedule is made. -/
def runnableNotices (picker : Picker) (g : Graph) : List Notice :=
  g.compileNotices picker.restriction

end Graph

end AgentFlow
