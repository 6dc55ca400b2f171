import AgentFlow.Canvas.Node
import AgentFlow.Settings.Basic

/-!
# Time estimates

A rough running time for display: the number of agents times the time of one agent times the
parallel factor, in that order, with one rounding for each operation. It is shown in seconds below a
minute, in minutes below an hour and else in hours, a half being rounded up. Edges do not matter.
-/

namespace AgentFlow

namespace Binary64

/-- One half. -/
def half : Binary64 := .ofRatio false 1 2

/-- The nearest whole number, a half upwards. -/
def roundHalfUp (x : Binary64) : Except NotWhole Int := (x + half).floor

end Binary64

/-- The number of agents among nodes. -/
def agentCount (nodes : List Node) : Nat := nodes.countP fun n ↦ n.kind = .agent

/-- The running time of a workflow in seconds. -/
def estimatedSeconds (settings : Settings) (nodes : List Node) : Binary64 :=
  Binary64.ofInt (agentCount nodes) * settings.secondsPerAgent * settings.parallelFactor

/-- A number of seconds as it is shown. -/
def durationText (seconds : Binary64) : Except Binary64.NotWhole String :=
  let shown (x : Binary64) (unit : String) : Except Binary64.NotWhole String :=
    x.roundHalfUp.map fun n ↦ "~" ++ String.ofList (intDigits n) ++ unit
  if seconds.lt (.ofInt 60) then shown seconds "s"
  else if seconds.lt (.ofInt 3600) then shown (seconds.divNat 60) "m"
  else shown (seconds.divNat 3600) "h"

/-- The running time of a workflow as it is shown. -/
def estimate (settings : Settings) (nodes : List Node) : Except Binary64.NotWhole String :=
  durationText (estimatedSeconds settings nodes)

end AgentFlow
