import AgentFlow.Proofs.Payload.Keys
import AgentFlow.Proofs.Payload.Likeness
import AgentFlow.Proofs.Run.Loading

/-!
# The hashed text of a schedule

Two schedules are alike (`Schedule.Alike`) if they have the same steps and connections in the same
order, field by field and with the same keys present, where texts count by their joined halves and
free values up to the order of keys. What is hashed is the canonical text of what the runtime is
given, so it stands for a schedule up to likeness, with its free values as they are written
(`Schedule.canonicalText_eq_iff`). Of a schedule with plain free values that is the schedule itself.
-/

namespace AgentFlow

/-! ## Likeness -/

/-- Whether two free mappings differ in the order of keys alone. -/
def Fields.Alike (m n : Fields) : Prop := (Json.object m).Alike (.object n)

/-- Whether two steps are the same field by field, with free values up to likeness. -/
@[mk_iff]
structure Step.Alike (a b : Step) : Prop where
  canisterId : a.canisterId.Alike b.canisterId
  agentName : a.agentName.Alike b.agentName
  inputTemplate : a.inputTemplate.Alike b.inputTemplate
  requiresApproval : a.requiresApproval = b.requiresApproval
  retryOnFailure : a.retryOnFailure = b.retryOnFailure
  timeout : a.timeout = b.timeout
  triggerConfig : Option.Rel Fields.Alike a.triggerConfig b.triggerConfig
  stepTarget : Option.Rel StepTarget.Alike a.stepTarget b.stepTarget
  loopConfig : Option.Rel Loop.Alike a.loopConfig b.loopConfig

/-- Whether two connections join the same places under like conditions. -/
@[mk_iff]
structure Connection.Alike (a b : Connection) : Prop where
  source : a.source = b.source
  target : a.target = b.target
  condition : a.condition.Alike b.condition

/-- Whether two schedules have like steps and like connections in the same order. -/
@[mk_iff]
structure Schedule.Alike (s t : Schedule) : Prop where
  steps : List.Forall₂ Step.Alike s.steps t.steps
  connections : List.Forall₂ Connection.Alike s.connections t.connections

/-! ## What the runtime is given -/

theorem Step.alike_runtime_iff {a b : Step} :
    a.runtime.Alike b.runtime ↔ a.settled.Alike b.settled := by
  have htimeout : Option.Rel Json.Alike (a.timeout.map Timeout.write)
      (b.timeout.map Timeout.write) ↔ a.timeout = b.timeout := by
    rw [optionRel_map_iff, ← optionRel_eq_iff]
    exact optionRel_congr fun _ _ ↦ Timeout.alike_write_iff
  have htrigger : Option.Rel Json.Alike (a.triggerConfig.map Fields.write)
      (b.triggerConfig.map Fields.write) ↔
        Option.Rel Fields.Alike a.settled.triggerConfig b.settled.triggerConfig := by
    rw [settled, settled, optionRel_map_iff, optionRel_map_iff]
    exact Iff.rfl
  have htarget : Option.Rel Json.Alike (a.stepTarget.map (StepTarget.write .wire))
      (b.stepTarget.map (StepTarget.write .wire)) ↔
        Option.Rel StepTarget.Alike a.settled.stepTarget b.settled.stepTarget := by
    rw [settled, settled, optionRel_map_iff, optionRel_map_iff]
    exact optionRel_congr fun _ _ ↦ StepTarget.alike_write_iff .wire
  have hloop : Option.Rel Json.Alike (a.loopConfig.map (Loop.write .wire))
      (b.loopConfig.map (Loop.write .wire)) ↔
        Option.Rel Loop.Alike a.settled.loopConfig b.settled.loopConfig := by
    rw [settled, settled, optionRel_map_iff]
    exact optionRel_congr fun _ _ ↦ Loop.alike_write_iff .wire
  have hkeys : AllApart a.entries := of_decide_eq_true rfl
  have hsame : a.entries.map Prod.fst = b.entries.map Prod.fst := rfl
  rw [runtime_eq, runtime_eq, Json.alike_present_iff hkeys hsame, alike_iff]
  simp only [entries, requiredFields, options, List.map_cons, List.map_nil, List.cons_append,
    List.nil_append, List.forall₂_cons, Option.rel_some_some, Json.alike_string_iff,
    Json.alike_bool_iff, htimeout, htrigger, htarget, hloop, List.forall₂_nil_left_iff, and_true]
  exact Iff.rfl

theorem Connection.alike_runtime_iff {a b : Connection} :
    a.runtime.Alike b.runtime ↔ a.settled.Alike b.settled := by
  rw [runtime, runtime, write, write, Json.alike_record_iff, alike_iff]
  · simp [Condition.alike_write_iff, settled]
  · exact of_decide_eq_true rfl
  · rfl

theorem Schedule.alike_runtime_iff {s t : Schedule} :
    s.runtime.Alike t.runtime ↔ s.settled.Alike t.settled := by
  have hsteps : ∀ a b : Step, a.runtime.Alike b.runtime ↔ a.settled.Alike b.settled := fun _ _ ↦
    Step.alike_runtime_iff
  have hconnections : ∀ a b : Connection, a.runtime.Alike b.runtime ↔ a.settled.Alike b.settled :=
    fun _ _ ↦ Connection.alike_runtime_iff
  rw [runtime, runtime, Json.alike_record_iff, alike_iff]
  · simp [runtimeFields, Json.alike_ofList_iff, settled, List.forall₂_map_left_iff,
      List.forall₂_map_right_iff, hsteps, hconnections]
  · exact of_decide_eq_true rfl
  · rfl

/-! ## Keys -/

namespace Step

variable {step : Step}

theorem wellKeyed_runtime (h : step.AllFree Json.WellKeyed Fields.AllWellKeyed) :
    step.runtime.WellKeyed := by
  have hfields : ∀ f ∈ step.fields .wire, f.2.WellKeyed := by
    simp only [fields, requiredFields, optionalFields, List.cons_append, List.nil_append,
      List.forall_mem_cons]
    refine ⟨Json.wellKeyed_string _, Json.wellKeyed_string _, Json.wellKeyed_string _,
      Json.wellKeyed_bool _, Json.wellKeyed_bool _, ?_, ?_, ?_, ?_,
      List.forall_mem_nil _⟩
    · exact Json.wellKeyed_ofOption fun t _ ↦ t.wellKeyed_write
    · exact Json.wellKeyed_ofOption fun m hm ↦ Fields.wellKeyed_write (h.1 m hm)
    · exact Json.wellKeyed_ofOption fun t ht ↦ StepTarget.wellKeyed_write .wire (h.2 t ht)
    · exact Json.wellKeyed_ofOption fun l _ ↦ l.wellKeyed_write .wire
  have hused : (step.requiredFields
      ++ (step.optionalFields .wire).filter fun f ↦ f.2 ≠ .null).Sublist (step.fields .wire) :=
    (List.Sublist.refl _).append List.filter_sublist
  have hkeys : AllApart (step.fields .wire) := of_decide_eq_true rfl
  exact Json.wellKeyed_record (hkeys.sublist (hused.map Prod.fst)) fun f hf ↦
    hfields f (hused.mem hf)

theorem allWellKeyed_of_writeFault?_eq_none (h : step.AllFree Json.Distinct Json.DistinctFields)
    (hfault : step.writeFault? = none) : step.AllFree Json.WellKeyed Fields.AllWellKeyed := by
  rw [writeFault?, Option.or_eq_none_iff, Option.bind_eq_none_iff,
    Option.bind_eq_none_iff] at hfault
  exact ⟨fun m hm ↦ Fields.allWellKeyed_of_writeFault?_eq_none (h.1 m hm) (hfault.1 m hm),
    fun t ht ↦ StepTarget.wellKeyed_of_choiceFault?_eq_none (h.2 t ht) (hfault.2 t ht)⟩

end Step

theorem Connection.wellKeyed_runtime {c : Connection} (h : c.AllFree Json.WellKeyed) :
    c.runtime.WellKeyed := by
  apply Json.wellKeyed_record (of_decide_eq_true rfl)
  simp only [List.forall_mem_cons]
  exact ⟨Json.wellKeyed_int _, Json.wellKeyed_int _, c.condition.wellKeyed_write .wire h, nofun⟩

namespace Schedule

variable {s t : Schedule}

/-- What can be written has known keys. -/
theorem wellKeyed_runtime (h : s.AllFree Json.Distinct Json.DistinctFields)
    (hfault : s.writeFault? = none) : s.runtime.WellKeyed := by
  obtain ⟨hsteps, hconnections⟩ := writeFault?_eq_none_iff.mp hfault
  apply Json.wellKeyed_record (of_decide_eq_true rfl)
  simp only [runtimeFields, List.forall_mem_cons]
  refine ⟨Json.wellKeyed_ofList fun step hstep ↦ ?_, Json.wellKeyed_ofList fun c hc ↦ ?_,
    List.forall_mem_nil _⟩
  · exact Step.wellKeyed_runtime
      (Step.allWellKeyed_of_writeFault?_eq_none (h.1 step hstep) (hsteps step hstep))
  · exact Connection.wellKeyed_runtime
      (Condition.wellKeyed_of_writeFault?_eq_none (h.2 c hc) (hconnections c hc))

/-! ## Canonical texts -/

/-- **The hashed text stands for a schedule** up to the order of keys in its free values, which are
compared as they are written. If they are plain, that is as they are. -/
theorem canonicalText_eq_iff (hs : s.writeFault? = none) (ht : t.writeFault? = none)
    (hsfree : s.AllFree Json.Distinct Json.DistinctFields)
    (htfree : t.AllFree Json.Distinct Json.DistinctFields) :
    (s.canonicalText = t.canonicalText ↔ s.settled.Alike t.settled) ∧
      (s.AllFree Json.IsPlain Fields.IsPlain → t.AllFree Json.IsPlain Fields.IsPlain →
        (s.canonicalText = t.canonicalText ↔ s.Alike t)) := by
  have hiff : s.canonicalText = t.canonicalText ↔ s.settled.Alike t.settled := by
    rw [canonicalText, canonicalText, Json.canonical_eq_iff (wellKeyed_runtime hsfree hs)
      (wellKeyed_runtime htfree ht), alike_runtime_iff]
  refine ⟨hiff, fun hsplain htplain ↦ ?_⟩
  rw [hiff, settled_eq_self_iff.mpr hsplain, settled_eq_self_iff.mpr htplain]

/-- One step that an agent runs, by a trigger and with a configuration of the agent. -/
def triggered (trigger config : Fields) : Schedule where
  steps :=
    [⟨"aaaaa-aa", "Clerk", "", false, true, some (.whole 30), some trigger,
      some (.agent ⟨"aaaaa-aa", .object config⟩), none⟩]
  connections := []

/-- The limits of a trigger. -/
def limits : Fields := [("calls", .int 3), ("rate", .float (.ofInt 3))]

theorem canonicalText_triggered :
    let s := triggered [("days", .array [.int 1, .null]), ("limits", .object limits)] limits
    let t := triggered [("limits", .object limits.reverse), ("days", .array [.int 1, .null])]
      limits.reverse
    s.writeFault? = none ∧ t.writeFault? = none ∧
      s.AllFree Json.Distinct Json.DistinctFields ∧ t.AllFree Json.Distinct Json.DistinctFields ∧
      s ≠ t ∧ s.canonicalText = t.canonicalText := by
  intro s t
  have hs : s.writeFault? = none := by decide +kernel
  have ht : t.writeFault? = none := by decide +kernel
  have hsfree : s.AllFree Json.Distinct Json.DistinctFields := by
    simp [s, triggered, limits, AllFree, Step.AllFree, StepTarget.freeValues, Json.Distinct,
      Json.DistinctFields, Json.DistinctItems]
  have htfree : t.AllFree Json.Distinct Json.DistinctFields := by
    simp [t, triggered, limits, AllFree, Step.AllFree, StepTarget.freeValues, Json.Distinct,
      Json.DistinctFields, Json.DistinctItems]
  have hsplain := settled_eq_self_iff.mp (by decide +kernel : s.settled = s)
  have htplain := settled_eq_self_iff.mp (by decide +kernel : t.settled = t)
  have hlimits : (Json.object limits).Alike (.object limits.reverse) := by
    refine (Json.normal_eq_iff ?_ ?_).mp (by decide +kernel) <;>
      simp [limits, Json.Distinct, Json.DistinctFields]
  have htrigger : Fields.Alike [("days", .array [.int 1, .null]), ("limits", .object limits)]
      [("limits", .object limits.reverse), ("days", .array [.int 1, .null])] := by
    refine (Json.normal_eq_iff ?_ ?_).mp (by decide +kernel) <;>
      simp [limits, Json.Distinct, Json.DistinctFields, Json.DistinctItems]
  refine ⟨hs, ht, hsfree, htfree, by decide +kernel, ?_⟩
  refine ((canonicalText_eq_iff hs ht hsfree htfree).2 hsplain htplain).mpr ⟨.cons ?_ .nil, .nil⟩
  exact ⟨rfl, rfl, rfl, rfl, rfl, rfl, .some htrigger, .some (.agent ⟨rfl, hlimits⟩), .none⟩

/-- An infinite limit is hashed like no limit. -/
theorem exists_canonicalText_unlike :
    ∃ s t : Schedule, s.writeFault? = none ∧ t.writeFault? = none ∧
      s.AllFree Json.Distinct Json.DistinctFields ∧ t.AllFree Json.Distinct Json.DistinctFields ∧
      s.canonicalText = t.canonicalText ∧ ¬s.Alike t := by
  refine ⟨triggered [("limit", .float (.infinity false))] [], triggered [("limit", .null)] [],
    rfl, rfl, ?_, ?_, congrArg Json.canonical rfl, ?_⟩
  · simp [triggered, AllFree, Step.AllFree, StepTarget.freeValues, Json.Distinct,
      Json.DistinctFields]
  · simp [triggered, AllFree, Step.AllFree, StepTarget.freeValues, Json.Distinct,
      Json.DistinctFields]
  · simp [triggered, alike_iff, Step.alike_iff, Fields.Alike, Json.alike_object_iff]

end Schedule

end AgentFlow
