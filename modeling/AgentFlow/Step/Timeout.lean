import AgentFlow.Payload.Scalar

/-!
# Timeouts

A timeout in seconds is a whole number or a binary64 number, and stays the one that it was given as.
Other values are taken for a whole number if they can be, else for a binary64 number.
-/

namespace AgentFlow

/-- A timeout in seconds. -/
inductive Timeout where
  /-- A whole number of seconds. -/
  | whole (seconds : Int)
  /-- A binary64 number of seconds. -/
  | fractional (seconds : Binary64)
  deriving DecidableEq

namespace Timeout

/-- Reads a timeout. -/
def read : Json → Reading Timeout :=
  .oneOf
    [("int", fun v ↦ .map .whole (.integer v)), ("float", fun v ↦ .map .fractional (.number v))]

/-- Writes a timeout. -/
def write : Timeout → Json
  | .whole n => .int n
  | .fractional x => .float x

end Timeout

end AgentFlow
