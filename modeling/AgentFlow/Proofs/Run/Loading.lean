import AgentFlow.Proofs.Json.Height
import AgentFlow.Proofs.Payload.Levels
import AgentFlow.Proofs.Run.Reopening

/-!
# Loading what the runtime was given

A snapshot can be drawn as it is, or from the steps and connections that the runtime is given. The
runtime form of a step leaves out the options that are not used, and reading it fills them in again,
so a step comes back settled (`Step.value?_read_runtime`). Settling shows in no name, label or
picture, so both drawings are written alike (`Snapshot.load_runtime`).

What can be written for the runtime can also be copied. All that is left to keep it from being drawn
is a number of runs that is too long for a description (`Schedule.drawFault?_of_writeFault?`), and
that is one of both schedules or of neither.
-/

namespace AgentFlow

/-! ## Faults of settled values -/

theorem Json.isCopied_of_height_le {v : Json} (h : v.height ≤ freeHeight) : v.isCopied :=
  decide_eq_true (h.trans (by decide))

theorem Fields.writeFault?_settled {m : Fields} (h : m.writeFault? = none) :
    m.settled.writeFault? = none := by
  rw [writeFault?, List.findSome?_eq_none_iff] at h ⊢
  intro f hf
  obtain ⟨g, hg, rfl⟩ := mem_settled hf
  exact (Json.writeFault?_finite g.2).trans (h g hg)

namespace StepTarget

theorem choiceFault?_settled (target : StepTarget) :
    target.settled.choiceFault? = target.choiceFault? := by
  cases target with
  | agent call =>
    simp only [settled, AgentCall.settled, choiceFault?, Json.writeFault?_finite, Json.freeFault?,
      Json.unwritable?_finite]
  | workflow call => rfl

theorem isCopied_of_choiceFault?_eq_none {target : StepTarget} (h : target.choiceFault? = none) :
    target.isCopied := by
  cases target with
  | agent call =>
    exact Json.isCopied_of_height_le
      (height_le_of_choiceFault?_eq_none h _ List.mem_cons_self)
  | workflow call => rfl

end StepTarget

namespace Condition

theorem markers_settled (c : Condition) : c.settled.markers = c.markers.map Json.finite := by
  obtain ⟨_ | _, _ | _, _ | _, ifContains, ifEquals⟩ := c <;> rfl

theorem writeFault?_settled (c : Condition) : c.settled.writeFault? = c.writeFault? := by
  simp only [writeFault?, markers_settled, List.findSome?_map, Function.comp_def, Json.freeFault?,
    Json.unwritable?_finite]

theorem isCopied_of_writeFault?_eq_none {c : Condition} (h : c.writeFault? = none) :
    c.isCopied := by
  rw [writeFault?, Option.or_eq_none_iff, Option.map_eq_none_iff,
    List.findSome?_eq_none_iff] at h
  rw [isCopied, List.all_eq_true]
  exact fun v hv ↦ Json.isCopied_of_height_le (Json.height_le_of_freeFault?_eq_none (h.1 v hv))

end Condition

namespace Schedule

variable {s : Schedule}

theorem writeFault?_settled (h : s.writeFault? = none) : s.settled.writeFault? = none := by
  rw [writeFault?_eq_none_iff] at h ⊢
  obtain ⟨hsteps, hconnections⟩ := h
  refine ⟨List.forall_mem_map.mpr fun step hstep ↦ ?_, List.forall_mem_map.mpr fun c hc ↦ ?_⟩
  · have hfault := hsteps step hstep
    rw [Step.writeFault?, Option.or_eq_none_iff, Option.bind_eq_none_iff] at hfault ⊢
    obtain ⟨htrigger, htarget⟩ := hfault
    refine ⟨fun m hm ↦ ?_, ?_⟩
    · obtain ⟨m, hm', rfl⟩ := Option.map_eq_some_iff.mp hm
      exact Fields.writeFault?_settled (htrigger m hm')
    · rw [← htarget, Step.settled, Option.bind_map]
      exact congrArg _ (funext StepTarget.choiceFault?_settled)
  · exact (c.condition.writeFault?_settled).trans (hconnections c hc)

theorem condition_of_mem_drawnConnections {c : Connection} (hc : c ∈ s.drawnConnections) :
    c.condition = .alwaysTrue ∨ c ∈ s.connections := by
  rw [drawnConnections] at hc
  split at hc
  next =>
    obtain ⟨i, -, rfl⟩ := List.mem_map.mp hc
    exact .inl rfl
  next => exact .inr (List.mem_of_mem_filter hc)

/-- What can be written for the runtime is copied, so its nodes are built unless a step cannot be
described. -/
theorem nodesFault?_of_writeFault? (h : s.writeFault? = none) :
    s.nodesFault? = if s.steps.any Step.hasLongCount then some .longInteger else none := by
  have hcopied : ∀ step ∈ s.steps, step.isCopied := by
    intro step hstep
    have hfault := (writeFault?_eq_none_iff.mp h).1 step hstep
    rw [Step.writeFault?, Option.or_eq_none_iff, Option.bind_eq_none_iff,
      Option.bind_eq_none_iff] at hfault
    rw [Step.isCopied, Option.all_eq_true]
    exact fun t ht ↦ StepTarget.isCopied_of_choiceFault?_eq_none (hfault.2 t ht)
  have hnode : ∀ step ∈ s.steps,
      step.nodeFault? = if step.hasLongCount then some .longInteger else none := by
    intro step hstep
    rw [Step.nodeFault?, copyFault?_eq_none_iff.mpr (hcopied step hstep)]
  rw [nodesFault?]
  cases hfault : s.steps.findSome? Step.nodeFault? with
  | none =>
    rw [List.findSome?_eq_none_iff] at hfault
    rw [if_neg]
    rw [List.any_eq_true]
    rintro ⟨step, hstep, hlong⟩
    have hnone := hfault step hstep
    rw [hnode step hstep, if_pos hlong] at hnone
    cases hnone
  | some fault =>
    obtain ⟨step, hstep, hsome⟩ := List.exists_of_findSome?_eq_some hfault
    rw [hnode step hstep] at hsome
    split at hsome
    next hlong => rw [if_pos (List.any_eq_true.mpr ⟨step, hstep, hlong⟩), hsome]
    next => cases hsome

/-- **What can be written for the runtime can be drawn** unless a step cannot be described. -/
theorem drawFault?_of_writeFault? (h : s.writeFault? = none) :
    s.drawFault? = if s.steps.any Step.hasLongCount then some .longInteger else none := by
  obtain ⟨hsteps, hconnections⟩ := writeFault?_eq_none_iff.mp h
  have hedges : copyFault? (s.connections.all s.drawsCondition) = none := by
    rw [copyFault?_eq_none_iff, List.all_eq_true]
    intro c hc
    rw [drawsCondition, Condition.isCopied_of_writeFault?_eq_none (hconnections c hc),
      Bool.or_true]
  have hwritten : s.canvas.writeFault? = none := by
    rw [Graph.writeFault?, Option.or_eq_none_iff, List.findSome?_eq_none_iff,
      List.findSome?_eq_none_iff]
    refine ⟨fun n hn ↦ ?_, fun e he ↦ ?_⟩
    · obtain ⟨i, hi, rfl⟩ := List.mem_mapIdx.mp hn
      exact hsteps _ (List.getElem_mem hi)
    · obtain ⟨c, hc, hshows⟩ := exists_shows_of_mem he
      rw [Edge.writeFault?_eq, hshows.condition]
      obtain halways | hmem := condition_of_mem_drawnConnections hc
      · rw [halways]
        rfl
      · exact hconnections c hmem
  rw [drawFault?, buildFault?, hedges, hwritten, Option.or_none, Option.or_none,
    nodesFault?_of_writeFault? h]

end Schedule

/-! ## The drawing of what was settled -/

theorem Step.node_settled (i : Nat) (step : Step) :
    step.settled.node i = (step.node i).settled := by
  obtain ⟨_, _, _, _, _, _, _, _ | call | call, _⟩ := step <;> rfl

theorem Connection.edge_settled (i : Nat) (c : Connection) :
    c.settled.edge i = (c.edge i).settled := by
  have hkind : c.settled.condition.kind = c.condition.kind :=
    congrArg Branch.kind c.condition.branch_settled
  have hlabel : c.settled.condition.label = c.condition.label :=
    congrArg Branch.label c.condition.branch_settled
  rw [edge, edge, hkind, hlabel]
  rfl

theorem Schedule.canvas_settled (s : Schedule) : s.settled.canvas = s.canvas.settled := by
  have hnodes : s.settled.drawnNodes = s.drawnNodes.map Node.settled := by
    refine List.ext_getElem (by simp [drawnNodes, settled]) fun i hi hi' ↦ ?_
    simp [drawnNodes, settled, Step.node_settled]
  have hedges : s.settled.drawnEdges = s.drawnEdges.map Edge.settled := by
    rw [drawnEdges, drawnEdges, settled, List.isEmpty_map, List.length_map]
    split
    next => rw [List.map_map]; rfl
    next =>
      rw [List.zipIdx_map, List.filter_map, List.map_map, List.map_map]
      exact List.map_congr_left fun p _ ↦ p.1.edge_settled p.2
  exact congrArg₂ Graph.mk hnodes hedges

/-! ## The form for the runtime -/

section Present

variable {α : Type} {f : α → Json} {rest : List (Key × Json)} {entries : List (Key × Option Json)}

theorem filter_ofOption (hnull : ∀ a, f a ≠ .null) (k : Key) (o : Option α)
    (hrest : rest.filter (fun g ↦ g.2 ≠ .null) = presentFields entries) :
    ((k, Json.ofOption f o) :: rest).filter (fun g ↦ g.2 ≠ .null)
      = presentFields ((k, o.map f) :: entries) := by
  cases o with
  | none => exact hrest
  | some a =>
    have ha : Json.ofOption f (some a) ≠ .null := hnull a
    rw [List.filter_cons_of_pos (by simpa using ha), hrest]
    rfl

theorem AllApart.optional_given {s : Spelling} {k : Key} {read : Json → Reading α} {v : Json}
    {a d : α} (hkeys : AllApart entries) (hk : entries.lookup k = some (some v))
    (hv : (read v).value? = some a) :
    (Record.optional k d read).Yields (.spelled s (AgentFlow.presentFields entries)) a :=
  hkeys.optional_present hk (fun _ hw ↦ Option.some.inj hw ▸ hv) nofun

theorem AllApart.optional_used {β : Type} {s : Spelling} {k : Key} {read : Json → Reading β}
    {g : α → β} {o : Option α} (hkeys : AllApart entries)
    (hk : entries.lookup k = some (o.map f)) (hnull : ∀ a, f a ≠ .null)
    (hread : ∀ a, (read (f a)).value? = some (g a)) :
    (Record.optional k none (Reading.nullable read)).Yields
      (.spelled s (AgentFlow.presentFields entries)) (o.map g) := by
  refine hkeys.optional_present hk (fun v hv ↦ ?_) fun hnone ↦ ?_
  · obtain ⟨a, rfl, rfl⟩ := Option.map_eq_some_iff.mp hv
    exact Reading.value?_nullable (o := some a) hnull fun a _ ↦ hread a
  · rw [Option.map_eq_none_iff.mp hnone, Option.map_none]

end Present

theorem Fields.value?_read_write (m : Fields) :
    (Reading.mapping m.write).value? = some m.settled := rfl

namespace Step

/-- The options of a step with the values of those that are used. -/
def options (step : Step) : List (Key × Option Json) :=
  [(.timeout, step.timeout.map Timeout.write),
   (.triggerConfig, step.triggerConfig.map Fields.write),
   (.stepTarget, step.stepTarget.map (StepTarget.write .wire)),
   (.loopConfig, step.loopConfig.map (Loop.write .wire))]

/-- The fields of a step for the runtime with the values of those that are there. -/
def entries (step : Step) : List (Key × Option Json) :=
  step.requiredFields.map (fun f ↦ (f.1, some f.2)) ++ step.options

theorem runtime_eq (step : Step) : step.runtime = .record .wire (presentFields step.entries) := by
  have hoptions : (step.optionalFields .wire).filter (fun f ↦ f.2 ≠ .null)
      = presentFields step.options :=
    filter_ofOption Timeout.write_ne_null _ _ <| filter_ofOption nofun _ _ <|
      filter_ofOption (StepTarget.write_ne_null .wire) _ _ <|
      filter_ofOption (Loop.write_ne_null .wire) _ _ rfl
  rw [runtime, hoptions]
  rfl

/-- What is left out for the runtime is filled in again when it is read. -/
theorem value?_read_runtime (step : Step) : (read step.runtime).value? = some step.settled := by
  have hkeys : AllApart step.entries := of_decide_eq_true rfl
  have htimeout := hkeys.optional_used (s := .wire) (k := .timeout) (o := step.timeout) rfl
    Timeout.write_ne_null Timeout.value?_read_write
  have htrigger := hkeys.optional_used (s := .wire) (k := .triggerConfig) (o := step.triggerConfig)
    (f := Fields.write) (g := Fields.settled) rfl nofun fun m ↦ Fields.value?_read_write m
  have htarget := hkeys.optional_used (s := .wire) (k := .stepTarget) (o := step.stepTarget) rfl
    (StepTarget.write_ne_null .wire) (StepTarget.value?_read_write .wire)
  have hloop := hkeys.optional_used (s := .wire) (k := .loopConfig) (o := step.loopConfig) rfl
    (Loop.write_ne_null .wire) (Loop.value?_read_write .wire)
  rw [Option.map_id'] at htimeout hloop
  have hread : record.Yields (.spelled .wire (presentFields step.entries)) step.settled :=
    (hkeys.required_present rfl rfl).map _
      |>.seq (hkeys.optional_given rfl rfl)
      |>.seq (hkeys.optional_given rfl rfl)
      |>.seq (hkeys.optional_given rfl rfl)
      |>.seq (hkeys.optional_given rfl rfl)
      |>.seq htimeout |>.seq htrigger |>.seq htarget |>.seq hloop
  rw [runtime_eq]
  exact hread

end Step

namespace Snapshot

/-- **Both ways to load a snapshot agree.** What the runtime is given can be read, and the drawings
of both schedules are written alike. Both are handed out, or both are refused for a number of runs
that is too long to be described. Each step comes back from the runtime settled, which is the step
itself exactly where its free values are plain, and so does each connection. -/
theorem load_runtime {s : Snapshot} (h : s.schedule.writeFault? = none) :
    (∃ (steps connections : List Json) (loaded : Schedule),
      s.runtime = .record .wire [(.steps, .array steps), (.connections, .array connections)] ∧
      Reading.each Step.read steps = .ok loaded.steps ∧
      Reading.each Connection.read connections = .ok loaded.connections ∧
      (s.drawn none).drawFault?
        = (if s.steps.any Step.hasLongCount then some .longInteger else none) ∧
      loaded.drawFault? = (s.drawn none).drawFault? ∧
      ∀ spelling, loaded.canvas.write spelling = (s.drawn none).canvas.write spelling) ∧
    (∀ step : Step, (step.hasLongCount ↔ ∃ loop, step.loopConfig = some (.repeated loop) ∧
      Json.longInteger ≤ loop.count.natAbs)) ∧
    (∀ step : Step, (Step.read step.runtime).result = .ok step.settled ∧
      (step.settled = step ↔ step.AllFree Json.IsPlain Fields.IsPlain)) ∧
    ∀ c : Connection, (Connection.read c.runtime).result = .ok c.settled ∧
      (c.settled = c ↔ c.AllFree Json.IsPlain) := by
  have hown := Schedule.drawFault?_of_writeFault? h
  have hloaded := Schedule.drawFault?_of_writeFault? (Schedule.writeFault?_settled h)
  refine ⟨⟨s.steps.map Step.runtime, s.connections.map Connection.runtime, s.schedule.settled, rfl,
    ?_, ?_, hown, ?_, fun spelling ↦ ?_⟩, fun step ↦ Step.hasLongCount_iff,
    fun step ↦ ⟨?_, Step.settled_eq_self_iff⟩, fun c ↦ ⟨?_, Connection.settled_eq_self_iff⟩⟩
  · exact Reading.each_eq_ok fun step _ ↦ step.value?_read_runtime
  · exact Reading.each_eq_ok fun c _ ↦ c.value?_read_write .wire
  · refine hloaded.trans (Eq.trans ?_ hown.symm)
    -- settling a step leaves its loop as it is
    rw [Schedule.settled, List.any_map]
    rfl
  · rw [Schedule.canvas_settled, Graph.write_settled]
    rfl
  · exact Reading.result_of_value? step.value?_read_runtime
  · exact Reading.result_of_value? (c.value?_read_write .wire)

/-- A snapshot of two steps. The first has a timeout and a trigger, the second calls a workflow; it
follows on success, and a test of nothing is there as well. -/
def handover : Snapshot where
  name := "Handover"
  description := ""
  mode := .sequential
  steps :=
    [⟨"aaaaa-aa", "Clerk", "", false, true, some (.whole 30),
      some [("cron", .string "* * * * *"), ("days", .array [.int 1, .null])], none, none⟩,
     ⟨"", "", "", true, false, none, none, some (.workflow ⟨"archive", ""⟩), some .once⟩]
  connections := [⟨0, 1, ⟨some .null, none, none, none, some none⟩⟩]
  validation := .empty
  hash := ""

theorem exists_loaded_handover :
    handover.schedule.writeFault? = none ∧
    ∃ (steps connections : List Json) (loaded : Schedule),
      handover.runtime
        = .record .wire [(.steps, .array steps), (.connections, .array connections)] ∧
      Reading.each Step.read steps = .ok loaded.steps ∧
      Reading.each Connection.read connections = .ok loaded.connections ∧
      (handover.drawn none).drawFault? = none ∧ loaded.drawFault? = none ∧
      loaded.canvas.write .wire = (handover.drawn none).canvas.write .wire := by
  have h : handover.schedule.writeFault? = none := by decide
  obtain ⟨⟨steps, connections, loaded, hruntime, hsteps, hconnections, hown, hloaded, hdrawn⟩, -⟩ :=
    load_runtime h
  have hfault : (handover.drawn none).drawFault? = none := hown.trans (by decide)
  exact ⟨h, steps, connections, loaded, hruntime, hsteps, hconnections, hfault,
    hloaded.trans hfault, hdrawn .wire⟩

/-- A snapshot of one step that is run a number of times with a digit too many. -/
def longRepeat : Snapshot :=
  { handover with
    steps := [⟨"aaaaa-aa", "Clerk", "", false, false, none, none, none,
      some (.repeated ⟨Json.longInteger, none⟩)⟩]
    connections := [] }

/-- A step whose trigger is configured with infinity can be given to the runtime, but does not come
back. And a snapshot can be given to the runtime whose drawing is refused. -/
theorem exists_unlike_loaded :
    (∃ step : Step, step.writeFault? = none ∧ (Step.read step.runtime).result ≠ .ok step) ∧
      ∃ s : Snapshot, s.schedule.writeFault? = none ∧
        (s.drawn none).drawFault? = some .longInteger := by
  constructor
  · refine ⟨⟨"aaaaa-aa", "", "", false, false, none, some [("limit", .float (.infinity false))],
      none, none⟩, rfl, fun h ↦ ?_⟩
    rw [Reading.result_of_value? (Step.value?_read_runtime _)] at h
    obtain ⟨htrigger, -⟩ := Step.settled_eq_self_iff.mp (Except.ok.inj h)
    have hnull := (htrigger _ rfl).finite _ List.mem_cons_self
    exact Json.noConfusion hnull
  · have hlong : longRepeat.steps.any Step.hasLongCount :=
      List.any_eq_true.mpr ⟨_, List.mem_cons_self,
        Step.hasLongCount_iff.mpr ⟨_, rfl, (Int.natAbs_natCast Json.longInteger).ge⟩⟩
    have h : (longRepeat.drawn none).writeFault? = none := rfl
    exact ⟨longRepeat, h, (Schedule.drawFault?_of_writeFault? h).trans (if_pos hlong)⟩

end Snapshot

end AgentFlow
