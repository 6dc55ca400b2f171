import AgentFlow.Run.Snapshot
import AgentFlow.Proofs.Canvas.Canister
import AgentFlow.Proofs.Principal.Codec
import AgentFlow.Proofs.Run.Readiness

/-!
# What a snapshot holds

A snapshot is taken by one check after another, and each check that passes says something of the
canvas. All of it together is `Graph.Saved`, and a snapshot is taken exactly if it holds
(`Graph.snapshot_eq_ok_iff`), so nothing below looks at the checks themselves.

The report of the validation is what makes a snapshot complete. A canvas is without problems only if
no cycle is found, so the nodes that may be run and are left out all lie behind an edge that no node
leaves. It is also what makes the steps sound: where principals are asked for, every node that may
be run was asked for one, though the validation asks all nodes and knows nothing of the picker.
-/

namespace AgentFlow

/-! ## Checks that pass -/

theorem SaveForm.checkedMode_eq_ok_iff {form : SaveForm} {g : Graph} {mode : ExecutionMode} :
    form.checkedMode g = .ok mode ↔
      isGiven form.name ∧ g.checkReady = .ok () ∧ ExecutionMode.ofValue form.mode = .ok mode := by
  rw [SaveForm.checkedMode]
  by_cases hname : isGiven form.name
  · rw [if_neg (by simpa using hname)]
    cases g.checkReady with
    | error cause => simp
    | ok _ => simp [hname, mapError_eq_ok_iff]
  · simp [hname]

theorem Schedule.checkedFingerprint_eq_ok_iff {s : Schedule} {hash : String} :
    s.checkedFingerprint = .ok hash ↔ s.compiledTextFault? = none ∧ s.fingerprint = hash := by
  rw [checkedFingerprint]
  cases s.compiledTextFault? with
  | none => simp
  | some fault => simp

namespace Graph

variable {settings : Settings} {picker : Picker} {form : SaveForm} {g : Graph} {s : Snapshot}

/-- **What a snapshot of a canvas rests on**, and what it is made of. -/
structure Saved (settings : Settings) (picker : Picker) (form : SaveForm) (g : Graph)
    (s : Snapshot) : Prop where
  /-- The form may be used on the canvas, and gives the mode. -/
  mode : form.checkedMode g = .ok s.mode
  /-- The canvas has no problems. -/
  problems : g.problems settings = []
  /-- The schedule is that of the canvas. -/
  schedule : s.schedule = g.compile picker.restriction
  /-- There is something to execute. -/
  steps : s.steps ≠ []
  /-- The schedule can be written as a text. -/
  written : s.schedule.compiledTextFault? = none
  /-- The fingerprint is that of the schedule. -/
  hash : s.hash = s.schedule.fingerprint
  /-- The name is that of the form. -/
  name : s.name = form.givenName
  /-- The description is that of the form. -/
  description : s.description = form.description.getD ""
  /-- The report is that on the canvas. -/
  validation : s.validation = g.report settings s.mode.name

/-- **A snapshot is taken** exactly if all checks pass. -/
theorem snapshot_eq_ok_iff :
    g.snapshot settings picker form = .ok s ↔ g.Saved settings picker form s := by
  rw [snapshot, bind_eq_ok_iff]
  constructor
  · rintro ⟨mode, hmode, h⟩
    dsimp only at h
    split at h
    next hvalid =>
      simp only [bind_eq_ok_iff, mapError_eq_ok_iff, runnable_eq_ok_iff,
        Schedule.checkedFingerprint_eq_ok_iff, Except.ok.injEq] at h
      obtain ⟨schedule, ⟨hschedule, hsteps⟩, hash, ⟨hwritten, hhash⟩, rfl⟩ := h
      exact ⟨hmode, report_isValid_iff.mp hvalid, hschedule, hsteps, hwritten,
        congrArg Text.ofString hhash.symm, rfl, rfl, rfl⟩
    next => exact absurd h (by simp)
  · intro h
    refine ⟨s.mode, h.mode, ?_⟩
    rw [if_pos (report_isValid_iff.mpr h.problems)]
    simp only [bind_eq_ok_iff, mapError_eq_ok_iff, runnable_eq_ok_iff,
      Schedule.checkedFingerprint_eq_ok_iff, Except.ok.injEq]
    refine ⟨s.schedule, ⟨h.schedule, h.steps⟩, _, ⟨h.written, rfl⟩, ?_⟩
    rw [← h.hash, ← h.name, ← h.description, ← h.validation]
    rfl

/-- **When a snapshot can be taken.** That the canvas is ready is no condition of its own, since
there has to be a step. -/
theorem exists_saved_iff :
    (∃ s, g.Saved settings picker form s) ↔
      isGiven form.name ∧ (∃ mode, ExecutionMode.ofValue form.mode = .ok mode) ∧
        g.problems settings = [] ∧ (g.compile picker.restriction).steps ≠ [] ∧
        (g.compile picker.restriction).compiledTextFault? = none := by
  constructor
  · rintro ⟨s, h⟩
    obtain ⟨hname, -, hmode⟩ := SaveForm.checkedMode_eq_ok_iff.mp h.mode
    rw [← h.schedule]
    exact ⟨hname, ⟨s.mode, hmode⟩, h.problems, h.steps, h.written⟩
  · rintro ⟨hname, ⟨mode, hmode⟩, hproblems, hsteps, hwritten⟩
    have hchecked : form.checkedMode g = .ok mode := by
      rw [SaveForm.checkedMode_eq_ok_iff, checkReady_eq_ok_iff]
      exact ⟨hname, hasConfiguredAgent_of_steps hsteps, hmode⟩
    exact ⟨⟨form.givenName, form.description.getD "", mode, g.steps _, g.connections _,
        g.report settings mode.name, (g.compile picker.restriction).fingerprint⟩,
      hchecked, hproblems, rfl, hsteps, hwritten, rfl, rfl, rfl, rfl⟩

/-! ## The steps of a snapshot -/

namespace Saved

theorem steps_eq (h : g.Saved settings picker form s) :
    s.steps = (g.compiledNodes picker.restriction).map Node.step :=
  congrArg Schedule.steps h.schedule

theorem hasCycle_eq_false (h : g.Saved settings picker form s) : g.hasCycle = false :=
  (problems_eq_nil_iff.mp h.problems).2

/-- A step calls the canister of its node. The picker has admitted it and the validation has seen
it. -/
theorem exists_node (h : g.Saved settings picker form s) {step : Step} (hstep : step ∈ s.steps) :
    ∃ n ∈ g.nodes, n.canister? = some step.canisterId ∧
      picker.restriction.Admits step.canisterId := by
  rw [h.steps_eq] at hstep
  obtain ⟨n, hn, rfl⟩ := List.mem_map.mp hstep
  obtain ⟨-, hlast, helig⟩ := mem_compiledNodes.mp hn
  exact ⟨n, hlast.mem, (Node.isEligible_iff.mp helig).2⟩

theorem isValid_canisterId (h : g.Saved settings picker form s) (hstrict : settings.strictPrincipals)
    {step : Step} (hstep : step ∈ s.steps) : Principal.isValid step.canisterId := by
  obtain ⟨n, hn, hcanister, -⟩ := h.exists_node hstep
  have hsound := (problems_eq_nil_iff.mp h.problems).1 n hn
  exact (Node.problem?_eq_none_iff.mp hsound).2 hstrict _ hcanister

end Saved

/-- **A snapshot is complete and well addressed.** It has a step. Its steps are those of a list of
nodes with different ids, each the last of its id and eligible; and every such node is in the list,
unless it is reached from an edge that no node leaves. Where principals are asked for, the steps
call canisters named by them. The fingerprint is that of the schedule. -/
theorem snapshot_complete (h : g.snapshot settings picker form = .ok s) :
    s.steps ≠ [] ∧
      (∃ compiled : List Node, s.steps = compiled.map Node.step ∧ (compiled.map Node.id).Nodup ∧
        (∀ n ∈ compiled, IsLast g.nodes n ∧ n.isEligible picker.restriction) ∧
        ∀ n, IsLast g.nodes n → n.isEligible picker.restriction → n ∈ compiled ∨
          ∃ e ∈ g.edges, e.source ∉ g.nodes.map Node.id ∧ g.digraph.Leads e.source n.id) ∧
      (settings.strictPrincipals → ∀ step ∈ s.steps, ∃ bytes : List UInt8,
        bytes.length ≤ 29 ∧ step.canisterId = Principal.format bytes) ∧
      s.hash = s.schedule.fingerprint := by
  have hsaved := snapshot_eq_ok_iff.mp h
  refine ⟨hsaved.steps, ⟨g.compiledNodes picker.restriction, hsaved.steps_eq, nodup_compiledIds,
    fun n hn ↦ (mem_compiledNodes.mp hn).2, fun n hlast helig ↦ ?_⟩, fun hstrict step hstep ↦ ?_,
    hsaved.hash⟩
  · exact mem_compiledNodes_or_exists_edge hsaved.hasCycle_eq_false hlast helig
  · exact Principal.isValid_iff.mp (hsaved.isValid_canisterId hstrict hstep)

/-- An agent after another one, and a third that only an id beside the canvas enters. -/
def relay : Graph where
  nodes := [.plain "b" "2vxsx-fae", .plain "c" "aaaaa-aa", .plain "a" "rrkah-fqaaa-aaaaa-aaaaq-cai"]
  edges := [.plain "e" "p" "c", .plain "f" "a" "b"]

/-- The form by which a canvas is saved under the name of a relay. -/
def relayForm : SaveForm := ⟨some (" Relay" : String), none, .string "parallel"⟩

theorem exists_snapshot_relay :
    ∃ s, relay.snapshot (.defaults (.ofText "/")) ⟨none, none⟩ relayForm = .ok s ∧ s.steps ≠ [] ∧
      (∀ step ∈ s.steps, ∃ bytes : List UInt8,
        bytes.length ≤ 29 ∧ step.canisterId = Principal.format bytes) ∧
      ∃ compiled : List Node, s.steps = compiled.map Node.step ∧
        (.plain "c" "aaaaa-aa" ∈ compiled ∨ ∃ e ∈ relay.edges,
          e.source ∉ relay.nodes.map Node.id ∧ relay.digraph.Leads e.source ("c" : Text)) := by
  have hcycle : relay.hasCycle = false :=
    hasCycle_eq_false_of_lt (["p", "c", "a", "b"] : List Text).idxOf (by decide)
  obtain ⟨s, hs⟩ : ∃ s, relay.Saved (.defaults (.ofText "/")) ⟨none, none⟩ relayForm s :=
    exists_saved_iff.mpr ⟨by decide, ⟨.parallel, rfl⟩,
      problems_eq_nil_iff.mpr ⟨by decide +kernel, hcycle⟩, by decide +kernel, by decide +kernel⟩
  have hsnapshot := snapshot_eq_ok_iff.mpr hs
  obtain ⟨hne, ⟨compiled, hsteps, -, -, hall⟩, haddressed, -⟩ := snapshot_complete hsnapshot
  exact ⟨s, hsnapshot, hne, haddressed rfl, compiled, hsteps,
    hall (.plain "c" "aaaaa-aa") ⟨[.plain "b" "2vxsx-fae"], [_], rfl, by decide⟩ (by decide)⟩

end Graph

end AgentFlow
