import AgentFlow.Canvas.Node

/-!
# Eligibility

Which nodes become steps. A node that does not is rejected for a reason and never raises an error,
so a canvas that is configured in part still compiles to the part that is ready. A restriction may
bar the canister that hosts the workflow itself, and may bound the canisters to a list; a bar or a
list that is empty bars nothing.
-/

namespace AgentFlow

/-- Which canisters may be called. -/
structure Restriction where
  /-- The canister that is barred, if any. -/
  excluded : Option Text
  /-- The canisters that are allowed, if they are bounded. -/
  allowed : Option (List Text)
  deriving DecidableEq

/-- The restriction that bars nothing. -/
def Restriction.none : Restriction := ⟨.none, .none⟩

namespace Restriction

/-- Whether a canister is barred. -/
def bars (r : Restriction) (canister : Text) : Bool :=
  match r.excluded with
  | some excluded => excluded ≠ "" && canister = excluded
  | .none => false

/-- Whether a canister is outside the allowed ones. -/
def leavesOut (r : Restriction) (canister : Text) : Bool :=
  match r.allowed with
  | some allowed => !allowed.isEmpty && canister ∉ allowed
  | .none => false

end Restriction

/-- Why a node does not become a step. -/
inductive Rejection where
  /-- It is no agent. -/
  | notAnAgent
  /-- It has no canister. -/
  | missingCanister
  /-- Its canister hosts the workflow. -/
  | hostingCanister
  /-- Its canister is not among the allowed ones. -/
  | notAvailable
  deriving DecidableEq

/-- The name of a reason. -/
def Rejection.name : Rejection → String
  | .notAnAgent => "not_an_agent"
  | .missingCanister => "missing_canister_id"
  | .hostingCanister => "hosting_canister"
  | .notAvailable => "not_available"

namespace Node

/-- Why a node does not become a step, if it does not; the first reason that applies. -/
def rejection? (r : Restriction) (n : Node) : Option Rejection :=
  if n.kind ≠ .agent then some .notAnAgent
  else
    match n.canister? with
    | none => some .missingCanister
    | some canister =>
      if r.bars canister then some .hostingCanister
      else if r.leavesOut canister then some .notAvailable
      else none

/-- Whether a node becomes a step. -/
def isEligible (r : Restriction) (n : Node) : Bool := (n.rejection? r).isNone

end Node

/-- The nodes that become steps, in their order. -/
def eligibleNodes (r : Restriction) (nodes : List Node) : List Node :=
  nodes.filter (Node.isEligible r)

end AgentFlow
