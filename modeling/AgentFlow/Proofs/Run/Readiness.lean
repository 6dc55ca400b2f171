import AgentFlow.Run.Readiness
import AgentFlow.Proofs.Canvas.Canister
import AgentFlow.Proofs.Canvas.Cycle
import AgentFlow.Proofs.Schedule.Compile

/-!
# What is run of a canvas

Saving and running a canvas end alike: it is compiled, and the schedule must not be empty. Neither
asks whether all that could have been run is in it. The compiler leaves an eligible node out if the
order does (`Graph.mem_compiledNodes`), that is if something holds it back, and two things may do
so: a cycle, and an edge that no node leaves. A search for cycles rules out the first and says
nothing of the second (`Graph.mem_compiledNodes_or_exists_edge`).

The rest of the module says when the single checks pass.
-/

namespace AgentFlow

/-! ## Checks in turn -/

theorem bind_eq_ok_iff {ε α β : Type} {x : Except ε α} {f : α → Except ε β} {b : β} :
    x >>= f = .ok b ↔ ∃ a, x = .ok a ∧ f a = .ok b := by
  cases x with
  | error e => simp [bind, Except.bind]
  | ok a => simp [bind, Except.bind]

theorem mapError_eq_ok_iff {ε ε' α : Type} {x : Except ε α} {f : ε → ε'} {a : α} :
    x.mapError f = .ok a ↔ x = .ok a := by
  cases x with
  | error e => simp [Except.mapError]
  | ok a => simp [Except.mapError]

namespace Graph

variable {g : Graph} {picker : Picker} {r : Restriction}

/-- A canvas is ready as soon as some agent has a canister. -/
theorem checkReady_eq_ok_iff : g.checkReady = .ok () ↔ hasConfiguredAgent g.nodes := by
  rw [checkReady]
  by_cases hnil : g.nodes = []
  · simp [hnil, hasConfiguredAgent]
  · rw [if_neg (by simpa using hnil)]
    by_cases hagent : hasConfiguredAgent g.nodes
    · simp [hagent]
    · simp [hagent]

/-- Where there is a step, the canvas is ready: the node of the step is an agent with a canister. -/
theorem hasConfiguredAgent_of_steps (hne : (g.compile r).steps ≠ []) :
    hasConfiguredAgent g.nodes := by
  obtain ⟨step, hstep⟩ := List.exists_mem_of_ne_nil _ hne
  obtain ⟨n, hn, -⟩ := List.mem_map.mp hstep
  obtain ⟨-, hlast, helig⟩ := mem_compiledNodes.mp hn
  obtain ⟨hkind, hcanister, -⟩ := Node.isEligible_iff.mp helig
  rw [hasConfiguredAgent, List.any_eq_true]
  refine ⟨n, hlast.mem, ?_⟩
  rw [Node.isConfiguredAgent, hkind, hcanister]
  rfl

theorem runnable_eq_ok_iff {s : Schedule} :
    g.runnable picker = .ok s ↔
      s = g.compile picker.restriction ∧ s.steps ≠ [] := by
  rw [runnable, Schedule.isEmpty]
  by_cases hnil : (g.compile picker.restriction).steps = []
  · rw [if_pos (by simpa using hnil)]
    simp only [reduceCtorEq, ne_eq, false_iff, not_and, not_not]
    rintro rfl
    exact hnil
  · rw [if_neg (by simpa using hnil), Except.ok.injEq, eq_comm]
    refine ⟨fun hs ↦ ⟨hs, hs ▸ hnil⟩, And.left⟩

/-! ## What is left out -/

/-- Where no cycle is found, an eligible node that counts is compiled unless it is reached from an
edge that no node leaves. -/
theorem mem_compiledNodes_or_exists_edge (hcycle : g.hasCycle = false) {n : Node}
    (hlast : IsLast g.nodes n) (helig : n.isEligible r) :
    n ∈ g.compiledNodes r ∨
      ∃ e ∈ g.edges, e.source ∉ g.nodes.map Node.id ∧ g.digraph.Leads e.source n.id := by
  by_cases hheld : g.digraph.HeldBack n.id
  · exact .inr (exists_edge_of_heldBack hcycle hlast.mem hheld)
  · exact .inl (mem_compiledNodes.mpr ⟨hheld, hlast, helig⟩)

end Graph

end AgentFlow
