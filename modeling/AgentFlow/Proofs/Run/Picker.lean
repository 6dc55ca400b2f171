import AgentFlow.Proofs.Run.Readiness
import AgentFlow.Proofs.Schedule.Restriction

/-!
# What a picker keeps out

A picker judges steps by one text, the canister that the step itself names. It keeps out the hosting
canister, and, as soon as one entry of its agents carries an id, every canister that no entry
carries (`Picker.Offers`). What is run under a picker is what would be run without one, less the
steps that it does not offer, and in the same order (`Graph.runnable_exact`).

A list of agents of which no entry carries an id bounds nothing, like an empty one. And a step has a
second reference, its target, which it takes over from its node. No picker looks at it, so it may
name any canister (`Graph.exists_call_past_picker`).
-/

namespace AgentFlow

namespace Picker

variable {picker : Picker} {canister : Text}

/-- Whether a picker lets a canister be called. An empty hosting id is none, and agents without ids
are no bound. -/
def Offers (picker : Picker) (canister : Text) : Prop :=
  (∀ hosting, picker.hosting = some hosting → hosting ≠ "" → canister ≠ hosting) ∧
    ∀ agents, picker.agents = some agents → (∃ entry ∈ agents, (agentId? entry).isSome) →
      ∃ entry ∈ agents, agentId? entry = some canister

theorem availableAgentIds_ne_nil_iff {agents : List Json} :
    availableAgentIds agents ≠ [] ↔ ∃ entry ∈ agents, (agentId? entry).isSome := by
  simp [availableAgentIds, List.filterMap_eq_nil_iff, Option.isSome_iff_ne_none]

theorem admits_restriction_iff : picker.restriction.Admits canister ↔ picker.Offers canister := by
  rw [Restriction.admits_iff, restriction]
  refine and_congr_right fun _ ↦ ?_
  rcases picker.agents with - | agents
  · simp
  · simp only [Option.map_some, Option.some.injEq, forall_eq', availableAgentIds_ne_nil_iff]
    rw [availableAgentIds, List.mem_filterMap]

instance : DecidablePred picker.Offers := fun canister ↦
  decidable_of_iff (picker.restriction.bars canister = false ∧
    picker.restriction.leavesOut canister = false) admits_restriction_iff

end Picker

namespace Graph

variable {g : Graph} {picker : Picker} {s : Schedule}

/-- A picker only takes steps away. -/
theorem steps_restriction :
    g.steps picker.restriction
      = (g.steps .none).filter fun step ↦ picker.Offers step.canisterId := by
  rw [steps, steps, List.filter_map, compiledNodes_eq_filter]
  refine congrArg (List.map Node.step) (List.filter_congr fun n _ ↦ ?_)
  rw [Function.comp_apply, decide_eq_decide]
  exact Picker.admits_restriction_iff

/-- **What is run under a picker** is what would be run without one, less the steps whose canister
it does not offer. Every step is that of an agent on the canvas, whose target it takes over. -/
theorem runnable_exact (h : g.runnable picker = .ok s) :
    s.steps = ((g.steps .none).filter fun step ↦ picker.Offers step.canisterId) ∧
      ∀ step ∈ s.steps, picker.Offers step.canisterId ∧
        ∃ n ∈ g.nodes, n.kind = .agent ∧ step = n.step := by
  obtain ⟨rfl, -⟩ := runnable_eq_ok_iff.mp h
  refine ⟨steps_restriction, fun step hstep ↦ ?_⟩
  obtain ⟨n, hn, rfl⟩ := List.mem_map.mp hstep
  obtain ⟨-, hlast, helig⟩ := mem_compiledNodes.mp hn
  obtain ⟨hkind, -, hadmits⟩ := Node.isEligible_iff.mp helig
  exact ⟨Picker.admits_restriction_iff.mp hadmits, n, hlast.mem, hkind, rfl⟩

/-- An agent that also has a target: a canister that is not its own. -/
def forwarder : Node where
  id := "a"
  kind := .agent
  position := .origin
  data := { NodeData.empty with canisterId := some "x", stepTarget := some (.agent ⟨"h", .null⟩) }

/-- The agent with a target beside a plain one. -/
def bypass : Graph := ⟨[forwarder, .plain "b" "y"], []⟩

theorem steps_bypass :
    ∃ s, bypass.runnable ⟨some [.string "x", .object []], some "h"⟩ = .ok s ∧
      s.steps.map Step.canisterId = ["x"] := by
  have hrun : bypass.runnable ⟨some [.string "x", .object []], some "h"⟩
      = .ok (bypass.compile (Picker.restriction ⟨some [.string "x", .object []], some "h"⟩)) :=
    runnable_eq_ok_iff.mpr ⟨rfl, by decide +kernel⟩
  refine ⟨_, hrun, ?_⟩
  rw [(runnable_exact hrun).1]
  decide +kernel

/-- A picker with an agent and a hosting canister lets a step hand its input to the hosting canister,
and one whose agents carry no ids lets every canister but the hosting one be called. -/
theorem exists_call_past_picker :
    (∃ s, bypass.runnable ⟨some [.string "x"], some "h"⟩ = .ok s ∧
      ∃ step ∈ s.steps, ∃ call : AgentCall, step.stepTarget = some (.agent call) ∧
        call.canisterId = "h" ∧ ∀ entry ∈ [Json.string "x"], agentId? entry ≠ some "h") ∧
    ∃ s, bypass.runnable ⟨some [.object []], some "h"⟩ = .ok s ∧
      ∃ step ∈ s.steps, ∀ entry ∈ [Json.object []], agentId? entry ≠ some step.canisterId := by
  constructor
  · refine ⟨_, runnable_eq_ok_iff.mpr ⟨rfl, by decide +kernel⟩, forwarder.step, ?_⟩
    exact ⟨by decide +kernel, ⟨"h", .null⟩, rfl, rfl, by decide +kernel⟩
  · refine ⟨_, runnable_eq_ok_iff.mpr ⟨rfl, by decide +kernel⟩, forwarder.step, ?_⟩
    exact ⟨by decide +kernel, by decide +kernel⟩

end Graph

end AgentFlow
