import AgentFlow.Payload.Scalar
import AgentFlow.Text.Path

/-!
# Settings

What can be set: how large a workflow may be before it is called large, the two numbers of the time
estimate, the folder of saved templates, and whether canisters have to be given by sound principals.
-/

namespace AgentFlow

/-- What can be set. -/
structure Settings where
  /-- The greatest number of nodes that is not called large. -/
  largeWorkflowThreshold : Nat
  /-- The time of one agent in seconds. -/
  secondsPerAgent : Binary64
  /-- The part of the time that is left when agents run side by side. -/
  parallelFactor : Binary64
  /-- The folder of saved templates. -/
  templatesFolder : Path
  /-- Whether canisters have to be given by sound principals. -/
  strictPrincipals : Bool
  deriving DecidableEq

namespace Settings

/-- The settings of a user who has set nothing. -/
def defaults (home : Path) : Settings where
  largeWorkflowThreshold := 10
  secondsPerAgent := .ofInt 30
  parallelFactor := .ofDecimal false 6 (-1)
  templatesFolder := home ++ .ofText ".agency_builder/templates"
  strictPrincipals := true

/-- Reads a path. -/
def readPath : Json → Reading Path
  | .string s => .exactly (.ofText s)
  | _ => .refuse .notPath

/-- The fields of settings, with the values of those that are not given. -/
def record (defaults : Settings) : Record Settings :=
  Settings.mk <$> .optional .largeWorkflowThreshold defaults.largeWorkflowThreshold Reading.natural
    <*> .optional .avgSecondsPerAgent defaults.secondsPerAgent Reading.nonneg
    <*> .optional .parallelFactor defaults.parallelFactor Reading.nonneg
    <*> .optional .templatesDir defaults.templatesFolder readPath
    <*> .optional .strictPrincipals defaults.strictPrincipals Reading.flag

/-- Reads settings. -/
def read (defaults : Settings) : Json → Reading Settings := (record defaults).read

/-- Writes settings. -/
def write (settings : Settings) : Json :=
  .record .plain
    [(.largeWorkflowThreshold, .int settings.largeWorkflowThreshold),
     (.avgSecondsPerAgent, .float settings.secondsPerAgent),
     (.parallelFactor, .float settings.parallelFactor),
     (.templatesDir, .string settings.templatesFolder.text),
     (.strictPrincipals, .bool settings.strictPrincipals)]

end Settings

end AgentFlow
