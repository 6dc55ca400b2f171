import AgentFlow.Json.Display

/-!
# Execution modes

How the steps of a workflow are run. Layout and validation take the mode by name and treat names
that they do not know like the conditional mode.
-/

namespace AgentFlow

/-- How the steps of a workflow are run. -/
inductive ExecutionMode where
  /-- One after another. -/
  | sequential
  /-- Side by side. -/
  | parallel
  /-- As the conditions say. -/
  | conditional
  deriving DecidableEq

/-- The name of a mode. -/
def ExecutionMode.name : ExecutionMode → String
  | .sequential => "sequential"
  | .parallel => "parallel"
  | .conditional => "conditional"

/-- The mode of a name. -/
def ExecutionMode.ofName? (s : Text) : Option ExecutionMode :=
  [ExecutionMode.sequential, .parallel, .conditional].find? (·.name = s)

/-- Why a value is no execution mode: it is not the name of one. -/
structure UnknownMode where
  /-- The value. -/
  value : Json
  deriving DecidableEq

/-- The wording of the fault. -/
def UnknownMode.message (fault : UnknownMode) : Text :=
  fault.value.display ++ " is not a valid ExecutionMode"

/-- The mode that a value names. -/
def ExecutionMode.ofValue (v : Json) : Except UnknownMode ExecutionMode :=
  match v with
  | .string s =>
    match ExecutionMode.ofName? s with
    | some mode => .ok mode
    | none => .error ⟨v⟩
  | _ => .error ⟨v⟩

end AgentFlow
