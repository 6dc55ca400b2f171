import AgentFlow.Run.Request
import AgentFlow.Proofs.Run.Readiness

/-!
# What a request holds

A request is made of a canvas that is ready, and being ready is no more than having an agent with a
canister. No search for cycles goes before it. So a request leaves out all that the order leaves
out (`Graph.request_steps_exact`): not only what lies behind an edge that no node leaves, but also
the nodes on a cycle and behind one. A canvas on which some agents wait for each other is run
without them, and nothing but a notice tells of it (`Graph.exists_left_out`). Whoever makes the
search for cycles first has the assurance that comes with a snapshot.
-/

namespace AgentFlow

namespace Graph

variable {picker : Picker} {input : Option Text} {g : Graph} {request : ExecutionRequest}

/-! ## Checks that pass -/

theorem checkedInput_eq_ok_iff {text : Text} :
    g.checkedInput input = .ok text ↔
      isGiven input ∧ hasConfiguredAgent g.nodes ∧ text = input.getD "" := by
  rw [checkedInput, ← checkReady_eq_ok_iff]
  by_cases hinput : isGiven input
  · rw [if_neg (by simpa using hinput)]
    cases g.checkReady with
    | error cause => simp [Except.map]
    | ok _ => simp [Except.map, hinput, eq_comm]
  · simp [hinput]

/-- A request is made exactly if there is an input and a step to run it on. -/
theorem request_eq_ok_iff :
    g.request picker input = .ok request ↔
      isGiven input ∧ request.input = input.getD "" ∧
        request.schedule = g.compile picker.restriction ∧ request.steps ≠ [] := by
  simp only [Graph.request, bind_eq_ok_iff, checkedInput_eq_ok_iff, runnable_eq_ok_iff,
    Except.ok.injEq]
  constructor
  · rintro ⟨text, ⟨hinput, -, htext⟩, schedule, ⟨hschedule, hsteps⟩, rfl⟩
    exact ⟨hinput, htext, hschedule, hsteps⟩
  · rintro ⟨hinput, htext, hschedule, hsteps⟩
    have hagent : hasConfiguredAgent g.nodes := by
      refine hasConfiguredAgent_of_steps (r := picker.restriction) ?_
      rwa [← hschedule]
    exact ⟨_, ⟨hinput, hagent, htext⟩, _, ⟨hschedule, hsteps⟩, rfl⟩

/-! ## The steps of a request -/

/-- **What a request holds.** Its steps are those of a list of nodes with different ids. The list
holds an eligible node that is the last of its id exactly if no id from which it is reached, itself
included, lies on a cycle or is neither that of a node nor the target of an edge. If no cycle is
found, what is missing from it is reached from an edge that no node leaves. -/
theorem request_steps_exact (h : g.request picker input = .ok request) :
    ∃ compiled : List Node, request.steps = compiled.map Node.step ∧
      (compiled.map Node.id).Nodup ∧
      (∀ n, n ∈ compiled ↔ (∀ u, g.digraph.Reaches u n.id → ¬g.digraph.OnCycle u ∧
          (u ∈ g.nodes.map Node.id ∨ ∃ e ∈ g.edges, e.target = u)) ∧
        IsLast g.nodes n ∧ n.isEligible picker.restriction) ∧
      (g.hasCycle = false → ∀ n, IsLast g.nodes n → n.isEligible picker.restriction →
        n ∈ compiled ∨
          ∃ e ∈ g.edges, e.source ∉ g.nodes.map Node.id ∧ g.digraph.Leads e.source n.id) := by
  obtain ⟨-, -, hschedule, -⟩ := request_eq_ok_iff.mp h
  refine ⟨g.compiledNodes picker.restriction, congrArg Schedule.steps hschedule, nodup_compiledIds,
    fun n ↦ ?_, fun hcycle n hlast helig ↦ mem_compiledNodes_or_exists_edge hcycle hlast helig⟩
  simp only [mem_compiledNodes, Digraph.not_heldBack_iff, entered_iff]

/-- A review that goes back to the draft, behind the agent that starts it. -/
def revision : Graph where
  nodes := [.plain "start" "2vxsx-fae", .plain "draft" "aaaaa-aa", .plain "review" "aaaaa-aa"]
  edges := [.plain "e" "start" "draft", .plain "f" "draft" "review", .plain "g" "review" "draft"]

/-- The request to run the revision. -/
def revisionRequest : ExecutionRequest := ⟨"go", [(Node.plain "start" "2vxsx-fae").step], []⟩

theorem request_revision :
    revision.request ⟨none, none⟩ (some ("go" : String)) = .ok revisionRequest := by
  rw [request_eq_ok_iff]
  exact ⟨by decide, rfl, by decide +kernel, by decide⟩

theorem exists_not_mem_compiled_revision :
    ∃ compiled : List Node, revisionRequest.steps = compiled.map Node.step ∧
      .plain "review" "aaaaa-aa" ∉ compiled := by
  obtain ⟨compiled, hsteps, -, hmem, -⟩ := request_steps_exact request_revision
  refine ⟨compiled, hsteps, fun hreview ↦ ?_⟩
  have hcycle : revision.digraph.OnCycle ("review" : Text) :=
    .head (arc_iff.mpr ⟨.plain "g" "review" "draft", by decide, rfl, rfl⟩)
      (.single (arc_iff.mpr ⟨.plain "f" "draft" "review", by decide, rfl, rfl⟩))
  exact (((hmem _).mp hreview).1 _ (.inl rfl)).1 hcycle

/-- A run may leave out an eligible node though every edge leaves a node. -/
theorem exists_left_out :
    ∃ (g : Graph) (picker : Picker) (input : Option Text) (request : ExecutionRequest) (n : Node),
      g.request picker input = .ok request ∧ IsLast g.nodes n ∧
        n.isEligible picker.restriction ∧ n.step ∉ request.steps ∧
        ¬∃ e ∈ g.edges, e.source ∉ g.nodes.map Node.id ∧ g.digraph.Reaches e.source n.id := by
  refine ⟨revision, ⟨none, none⟩, _, revisionRequest, .plain "review" "aaaaa-aa", request_revision,
    ⟨[_, _], [], rfl, by simp⟩, by decide, by decide, ?_⟩
  rintro ⟨e, he, hforeign, -⟩
  exact hforeign ((by decide : ∀ e ∈ revision.edges, e.source ∈ revision.nodes.map Node.id) e he)

end Graph

end AgentFlow
