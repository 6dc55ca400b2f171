import AgentFlow.Eligibility
import AgentFlow.Json.Display

/-!
# The agent picker

A run may be given the agents that are available and the canister that hosts the workflow. An entry
of the list of agents is a canister id, or an object that carries one. An entry that carries none is
passed over, and a list that carries none at all bounds nothing.
-/

namespace AgentFlow

/-- The canister id that an entry carries: the entry itself if it is a text, else a field of it. An
id that does not count as given is none. -/
def agentId? (entry : Json) : Option Text :=
  let carried :=
    match entry with
    | .string s => Json.string s
    | .object fields =>
      ((Fields.get? fields "canisterId").getD .null).orElse
        ((Fields.get? fields "canister_id").getD .null)
    | _ => .null
  if carried.isTruthy then some carried.plainText else none

/-- The canister ids that a list of available agents carries. -/
def availableAgentIds (agents : List Json) : List Text := agents.filterMap agentId?

/-- The agents that a run may call. -/
structure Picker where
  /-- The available agents, if they are bounded. -/
  agents : Option (List Json)
  /-- The canister that hosts the workflow. -/
  hosting : Option Text

/-- The restriction that a picker puts on canisters. -/
def Picker.restriction (picker : Picker) : Restriction :=
  ⟨picker.hosting, picker.agents.map availableAgentIds⟩

end AgentFlow
