import AgentFlow.Proofs.Run.Snapshot
import AgentFlow.Proofs.Schedule.Writing

/-!
# Reopening what was saved

A saved workflow can be opened again and saved again, whatever it was saved from. Name and mode are
those of the form; a snapshot of a canvas needs three things besides (`Graph.exists_saved_iff`), and
the drawing of a snapshot has them all.

* It has no problems. The connections of a compiled schedule go forward, and so do the links of the
  chain that is drawn where there are none, so there is no cycle (`Redrawable.hasCycle_canvas`). And
  the canisters of its nodes are those that have been validated before (`problems_canvas`).
* It is compiled to the schedule itself, renumbered, since the picker has admitted all canisters
  before (`Redrawable.compile_canvas_of_admits`). So no step is lost.
* What could be written is written again (`WellFormed.compiledTextFault?_redrawn`).
-/

namespace AgentFlow

namespace Schedule

variable {s : Schedule} {settings : Settings}

/-! ## The drawing of a schedule -/

theorem mem_drawnNodes_iff {n : Node} :
    n ∈ s.drawnNodes ↔ ∃ i, ∃ hi : i < s.steps.length, s.steps[i].node i = n :=
  List.mem_mapIdx

theorem source_mem_drawnNodes {e : Edge} (he : e ∈ s.drawnEdges) :
    e.source ∈ s.drawnNodes.map Node.id := by
  obtain ⟨c, hc, hshows⟩ := exists_shows_of_mem he
  rw [drawnNodes_map_id, hshows.source]
  exact List.mem_map_of_mem (List.mem_range.mpr (inRange_of_mem_drawnConnections hc).1)

/-- Where the drawn connections have no cycle, none is found in the drawing. -/
theorem Redrawable.hasCycle_canvas (h : s.Redrawable) : s.canvas.hasCycle = false := by
  rw [Graph.hasCycle_eq_false_iff fun _ ↦ source_mem_drawnNodes, order_canvas_digraph]
  intro n hn
  obtain ⟨i, hi, rfl⟩ := mem_drawnNodes_iff.mp hn
  exact List.mem_map_of_mem (h.mem_order_iff.mpr hi)

namespace WellFormed

/-- A drawing is valid if its canisters are. -/
theorem problems_canvas (h : s.WellFormed)
    (hvalid : settings.strictPrincipals → ∀ step ∈ s.steps, Principal.isValid step.canisterId) :
    s.canvas.problems settings = [] := by
  rw [Graph.problems_eq_nil_iff]
  refine ⟨fun n hn ↦ ?_, h.redrawable.hasCycle_canvas⟩
  obtain ⟨i, hi, rfl⟩ := mem_drawnNodes_iff.mp hn
  have hstep : s.steps[i] ∈ s.steps := List.getElem_mem hi
  rw [Node.problem?_eq_none_iff, Step.canister?_node (h.canister _ hstep)]
  refine ⟨fun _ ↦ rfl, fun hstrict canister hcanister ↦ ?_⟩
  obtain rfl : s.steps[i].canisterId = canister := Option.some.inj hcanister
  exact hvalid hstrict _ hstep

end WellFormed

end Schedule

namespace Graph

variable {settings : Settings} {picker : Picker} {form : SaveForm} {g : Graph} {s : Snapshot}

/-! ## The drawing of a snapshot -/

namespace Saved

theorem wellFormed (h : g.Saved settings picker form s) : s.schedule.WellFormed := by
  rw [h.schedule]
  exact g.wellFormed_compile _

theorem written_steps (h : g.Saved settings picker form s) : ∀ step ∈ s.steps, step.Written :=
  (h.wellFormed.compiledTextFault?_eq_none_iff.mp h.written).1

theorem problems_canvas (h : g.Saved settings picker form s) :
    s.schedule.canvas.problems settings = [] :=
  h.wellFormed.problems_canvas fun hstrict _ hstep ↦ h.isValid_canisterId hstrict hstep

theorem compile_canvas (h : g.Saved settings picker form s) :
    s.schedule.canvas.compile picker.restriction = s.schedule.redrawn := by
  refine h.wellFormed.redrawable.compile_canvas_of_admits fun step hstep ↦ ?_
  obtain ⟨n, -, -, hadmits⟩ := h.exists_node hstep
  exact hadmits

/-- The drawing of a snapshot can be saved. -/
theorem exists_saved_canvas (h : g.Saved settings picker form s) :
    ∃ again, s.schedule.canvas.Saved settings picker form again := by
  obtain ⟨hname, hmode, -⟩ := exists_saved_iff.mp ⟨s, h⟩
  have hperm : s.schedule.redrawn.steps.Perm s.steps := h.wellFormed.perm_redrawn_steps
  rw [exists_saved_iff, h.compile_canvas]
  refine ⟨hname, hmode, h.problems_canvas, ?_, h.wellFormed.compiledTextFault?_redrawn h.written⟩
  intro hnil
  rw [hnil] at hperm
  exact h.steps hperm.nil_eq.symm

end Saved

/-- **What was saved can be reopened and saved again.** The drawing of a snapshot is handed out,
validation finds no error in it in any mode, and a snapshot of it is taken by the same form and
picker under the same settings. This snapshot holds the schedule of the first one after a round
trip, so it has the same steps in another order at most. -/
theorem exists_snapshot_drawn (h : g.snapshot settings picker form = .ok s) :
    (s.drawn none).drawFault? = none ∧
      (∀ mode : Text, ((s.drawn none).canvas.report settings mode).isValid ∧
        ((s.drawn none).canvas.report settings mode).errors = []) ∧
      ∃ again, (s.drawn none).canvas.snapshot settings picker form = .ok again ∧
        again.steps.Perm s.steps ∧ again.schedule = (s.drawn none).redrawn := by
  have hsaved := snapshot_eq_ok_iff.mp h
  refine ⟨hsaved.wellFormed.drawFault?_eq_none hsaved.written_steps, fun mode ↦ ?_, ?_⟩
  · exact ⟨report_isValid_iff.mpr hsaved.problems_canvas,
      report_errors_eq_nil_iff.mpr hsaved.problems_canvas⟩
  · obtain ⟨again, hagain⟩ := hsaved.exists_saved_canvas
    have hredrawn : again.schedule = s.schedule.redrawn :=
      hagain.schedule.trans hsaved.compile_canvas
    have hsteps : again.steps = s.schedule.redrawn.steps := congrArg Schedule.steps hredrawn
    refine ⟨again, snapshot_eq_ok_iff.mpr hagain, ?_, hredrawn⟩
    rw [hsteps]
    exact hsaved.wellFormed.perm_redrawn_steps

/-- Of three agents, the second is entered from the first, and the third through two that call the
hosting canister. -/
def hostedDetour : Graph where
  nodes := [.plain "p" "2vxsx-fae", .plain "a" "aaaaa-aa", .plain "q" "2vxsx-fae",
    .plain "b" "rrkah-fqaaa-aaaaa-aaaaq-cai", .plain "c" "renrk-eyaaa-aaaaa-aaada-cai"]
  edges := [.plain "e" "a" "b", .plain "f" "p" "q", .plain "g" "q" "c"]

/-- The form by which a canvas is saved under the name of a detour. -/
def detourForm : SaveForm := ⟨some ("Detour" : String), some ("" : String), .string "sequential"⟩

/-- The picker of a canvas whose canister no agent may call. -/
def hostPicker : Picker := ⟨none, some ("2vxsx-fae" : String)⟩

/-- What is saved again may have its steps in another order. -/
theorem exists_snapshot_drawn_hostedDetour :
    ∃ s again, hostedDetour.snapshot (.defaults (.ofText "/")) hostPicker detourForm = .ok s ∧
      (s.drawn none).canvas.snapshot (.defaults (.ofText "/")) hostPicker detourForm = .ok again ∧
      again.steps.Perm s.steps ∧ again.steps ≠ s.steps := by
  have hcycle : hostedDetour.hasCycle = false :=
    hasCycle_eq_false_of_lt (["p", "a", "q", "b", "c"] : List Text).idxOf (by decide)
  obtain ⟨s, hs⟩ : ∃ s, hostedDetour.Saved (.defaults (.ofText "/")) hostPicker detourForm s :=
    exists_saved_iff.mpr ⟨by decide, ⟨.sequential, rfl⟩,
      problems_eq_nil_iff.mpr ⟨by decide +kernel, hcycle⟩, by decide +kernel, by decide +kernel⟩
  have hsnapshot := snapshot_eq_ok_iff.mpr hs
  obtain ⟨-, -, again, hagain, hperm, hredrawn⟩ := exists_snapshot_drawn hsnapshot
  -- on the canvas the third agent waits for two others, in the drawing it waits for none
  have hmoved : (hostedDetour.compile hostPicker.restriction).redrawn.steps
      ≠ (hostedDetour.compile hostPicker.restriction).steps := by
    decide +kernel
  rw [← hs.schedule] at hmoved
  have hsteps : again.steps = s.schedule.redrawn.steps := congrArg Schedule.steps hredrawn
  exact ⟨s, again, hsnapshot, hagain, hperm, hsteps ▸ hmoved⟩

end Graph

end AgentFlow
