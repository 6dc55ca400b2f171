import AgentFlow.Schedule.Compile
import AgentFlow.Validation.Check

/-!
# The canisters of nodes

Two parts of the library judge a node before it is run: the choice of the nodes that become steps,
and the validation. Both see nothing of it but its kind and its canister, and to both a blank
canister is none (`Node.canister?`). So each verdict is one condition on these two
(`Node.isEligible_iff`, `Node.problem?_eq_none_iff`), and two nodes that agree in them are judged
alike.

The conditions are not the same. A node that is no agent never becomes a step, but its canister is
validated; and the validation knows no canisters that are barred.
-/

namespace AgentFlow

/-- A canister may be called: it is neither barred nor outside the allowed ones. -/
def Restriction.Admits (r : Restriction) (canister : Text) : Prop :=
  r.bars canister = false ∧ r.leavesOut canister = false

theorem Restriction.none_admits (canister : Text) : Restriction.none.Admits canister := ⟨rfl, rfl⟩

namespace Node

variable {n : Node}

theorem canister?_eq_some_iff {canister : Text} :
    n.canister? = some canister ↔
      n.canisterId = some canister ∧ isBlankText canister = false := by
  rw [canister?, Option.filter_eq_some_iff, Bool.not_eq_true']

/-! ## Becoming a step -/

theorem isEligible_iff_exists {r : Restriction} :
    n.isEligible r ↔
      n.kind = .agent ∧ ∃ canister, n.canister? = some canister ∧ r.Admits canister := by
  rw [isEligible, Option.isNone_iff_eq_none, rejection?]
  by_cases hkind : n.kind = .agent
  · rw [if_neg (not_not_intro hkind)]
    cases n.canister? with
    | none => simp
    | some canister =>
      by_cases hbars : r.bars canister
      · simp [hbars, Restriction.Admits]
      · by_cases hout : r.leavesOut canister
        · simp [hbars, hout, Restriction.Admits]
        · simp [hkind, hbars, hout, Restriction.Admits]
  · simp [hkind]

/-- The canister that is judged is the one that the step calls. -/
theorem isEligible_iff {r : Restriction} :
    n.isEligible r ↔
      n.kind = .agent ∧ n.canister? = some n.step.canisterId ∧ r.Admits n.step.canisterId := by
  rw [isEligible_iff_exists]
  refine and_congr_right fun _ ↦ ⟨?_, fun h ↦ ⟨_, h⟩⟩
  rintro ⟨canister, hcanister, hadmits⟩
  have hstep : n.step.canisterId = canister := by
    rw [step, (canister?_eq_some_iff.mp hcanister).1, Option.getD_some]
  rw [hstep]
  exact ⟨hcanister, hadmits⟩

/-! ## Being valid -/

theorem problem?_eq_none_iff {settings : Settings} :
    n.problem? settings = none ↔ (n.kind = .agent → n.canister?.isSome) ∧
      (settings.strictPrincipals → ∀ canister, n.canister? = some canister →
        Principal.isValid canister) := by
  rw [problem?]
  cases n.canister? with
  | none => simp
  | some canister => simp

end Node

namespace Graph

variable {g : Graph} {settings : Settings}

theorem problems_eq_nil_iff :
    g.problems settings = [] ↔
      (∀ n ∈ g.nodes, n.problem? settings = none) ∧ g.hasCycle = false := by
  rw [problems, List.append_eq_nil_iff, List.filterMap_eq_nil_iff]
  simp

theorem report_isValid_iff {mode : Text} :
    (g.report settings mode).isValid ↔ g.problems settings = [] :=
  List.isEmpty_iff

theorem report_errors_eq_nil_iff {mode : Text} :
    (g.report settings mode).errors = [] ↔ g.problems settings = [] :=
  List.map_eq_nil_iff

end Graph

end AgentFlow
