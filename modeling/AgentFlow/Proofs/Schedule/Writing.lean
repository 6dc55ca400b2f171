import AgentFlow.Proofs.Schedule.Redrawing

/-!
# Writing a drawn schedule

What keeps a schedule from being written is looked for at every value in it. In a compiled schedule
it can only be found in two places: in a step, and in the number of steps. Connections have nothing
of their own that could go wrong, since a condition in normal form has no free value but null, and
the places that they name are less than the number of steps
(`WellFormed.compiledTextFault?_eq_none_iff`).

Drawing and compiling again moves steps and keeps them as they are. So a schedule that can be written
as a text gives a drawing that can be handed out (`WellFormed.drawFault?_eq_none`), and comes back as
one that can be written as a text (`WellFormed.compiledTextFault?_redrawn`).
-/

namespace AgentFlow

/-! ## Whole numbers in records -/

namespace Json

theorem hasLongIntegerItems_eq_any (vs : List Json) :
    hasLongIntegerItems vs = vs.any hasLongInteger := by
  induction vs with
  | nil => rfl
  | cons v vs ih => rw [hasLongIntegerItems, ih, List.any_cons]

theorem hasLongIntegerFields_eq_any (fields : Fields) :
    hasLongIntegerFields fields = fields.any fun f ↦ f.2.hasLongInteger := by
  induction fields with
  | nil => rfl
  | cons f fields ih => rw [hasLongIntegerFields, ih, List.any_cons]

theorem hasLongInteger_record (s : Spelling) (fields : List (Key × Json)) :
    (record s fields).hasLongInteger = fields.any fun f ↦ f.2.hasLongInteger := by
  rw [record, hasLongInteger, hasLongIntegerFields_eq_any, List.any_map]
  rfl

theorem hasLongInteger_ofList_eq_false_iff {α : Type} {f : α → Json} {l : List α} :
    (ofList f l).hasLongInteger = false ↔ ∀ a ∈ l, (f a).hasLongInteger = false := by
  rw [ofList, hasLongInteger, hasLongIntegerItems_eq_any, List.any_map, List.any_eq_false]
  simp

theorem hasLongInteger_natCast_eq_false_iff {n : Nat} :
    (int n).hasLongInteger = false ↔ n < longInteger := by
  rw [hasLongInteger, decide_eq_false_iff_not, Int.natAbs_natCast, Nat.not_le]

end Json

/-! ## Faults of records -/

theorem textFault?_eq_none_iff {fault? : Option WriteFault} {v : Json} :
    textFault? fault? v = none ↔ fault? = none ∧ v.hasLongInteger = false := by
  rw [textFault?, Option.or_eq_none_iff]
  cases v.hasLongInteger <;> simp

theorem fileText_eq_ok_iff {fault? : Option WriteFault} {v : Json} {text : Text} :
    fileText fault? v = .ok text ↔
      (fault? = none ∧ v.hasLongInteger = false) ∧ v.pretty = text := by
  rw [← textFault?_eq_none_iff, fileText]
  split
  next fault hfault => simp [hfault]
  next hnone => simp [hnone]

/-! ## Whole numbers of a schedule -/

theorem Branch.hasLongInteger_write_condition (s : Spelling) (b : Branch) :
    (b.condition.write s).hasLongInteger = false := by
  rw [Condition.write, Json.hasLongInteger_record]
  cases b with
  | ifContains test | ifEquals test =>
    exact (Bool.or_false _).trans (Json.hasLongInteger_record s _)
  | onSuccess | onFailure | always => rfl

theorem Loop.hasLongCount_eq_false {s : Spelling} {loop : Loop}
    (h : (loop.write s).hasLongInteger = false) : loop.hasLongCount = false := by
  cases loop with
  | repeated loop =>
    rw [write, Json.hasLongInteger_record, List.any_cons, Bool.or_eq_false_iff, Repeat.write,
      Json.hasLongInteger_record, List.any_cons, Bool.or_eq_false_iff] at h
    exact h.1.1
  | forEach _ | whileHolds _ | once => rfl

/-- A step whose whole numbers are short enough for a text can be described. -/
theorem Step.hasLongCount_eq_false {step : Step} (h : step.runtime.hasLongInteger = false) :
    step.hasLongCount = false := by
  rw [runtime, Json.hasLongInteger_record, List.any_eq_false] at h
  rw [hasLongCount, Option.any_eq_false]
  intro loop hloop
  have hwritten : loop.write .wire ≠ .null := by
    intro hnull
    cases loop with
    | forEach _ | whileHolds _ | repeated _ | once => cases hnull
  have hmem : (Key.loopConfig, loop.write .wire) ∈ step.requiredFields
      ++ (step.optionalFields .wire).filter fun f ↦ f.2 ≠ .null := by
    simp [optionalFields, hloop, Json.ofOption, hwritten]
  exact Bool.not_eq_true _ ▸ Loop.hasLongCount_eq_false (Bool.eq_false_of_not_eq_true (h _ hmem))

namespace Connection

variable {c : Connection}

theorem hasLongInteger_runtime_eq_false_iff (hc : c.condition.normalized = c.condition) :
    c.runtime.hasLongInteger = false ↔
      c.source < Json.longInteger ∧ c.target < Json.longInteger := by
  have hcondition : (c.condition.write .wire).hasLongInteger = false := by
    rw [← hc]
    exact Branch.hasLongInteger_write_condition _ _
  rw [runtime, write, Json.hasLongInteger_record]
  simp [hcondition, Json.hasLongInteger_natCast_eq_false_iff]

end Connection

/-! ## Schedules -/

/-- What a step has to be for its schedule to be written as a text. -/
structure Step.Written (step : Step) : Prop where
  /-- What it calls is copied. -/
  copied : step.isCopied
  /-- It can be written. -/
  fault : step.writeFault? = none
  /-- Its whole numbers are short enough for a text. -/
  short : step.runtime.hasLongInteger = false

namespace Schedule

variable {s : Schedule}

theorem writeFault?_eq_none_iff :
    s.writeFault? = none ↔
      (∀ step ∈ s.steps, step.writeFault? = none) ∧ ∀ c ∈ s.connections, c.writeFault? = none := by
  rw [writeFault?, Option.or_eq_none_iff, List.findSome?_eq_none_iff, List.findSome?_eq_none_iff]

theorem hasLongInteger_runtime_eq_false_iff :
    s.runtime.hasLongInteger = false ↔
      (∀ step ∈ s.steps, step.runtime.hasLongInteger = false) ∧
        ∀ c ∈ s.connections, c.runtime.hasLongInteger = false := by
  rw [runtime, Json.hasLongInteger_record, runtimeFields, ← Json.hasLongInteger_ofList_eq_false_iff,
    ← Json.hasLongInteger_ofList_eq_false_iff]
  simp

theorem compiledTextFault?_eq_none_iff :
    s.compiledTextFault? = none ↔
      (∀ step ∈ s.steps, step.Written) ∧
        (∀ c ∈ s.connections, c.writeFault? = none ∧ c.runtime.hasLongInteger = false) ∧
        s.steps.length ≤ Json.longInteger := by
  have hplaces : (if s.hasLongPlaces then some WriteFault.longInteger else none) = none ↔
      s.steps.length ≤ Json.longInteger := by
    simp [hasLongPlaces]
  rw [compiledTextFault?, Option.or_eq_none_iff, hplaces, textFault?_eq_none_iff, compiledFault?,
    copiedFault?, Option.or_eq_none_iff, copyFault?_eq_none_iff, writeFault?_eq_none_iff,
    hasLongInteger_runtime_eq_false_iff, List.all_eq_true]
  constructor
  · rintro ⟨⟨⟨hcopied, hsteps, hconnections⟩, hshort, hlong⟩, hlength⟩
    exact ⟨fun step hstep ↦ ⟨hcopied step hstep, hsteps step hstep, hshort step hstep⟩,
      fun c hc ↦ ⟨hconnections c hc, hlong c hc⟩, hlength⟩
  · rintro ⟨hsteps, hconnections, hlength⟩
    exact ⟨⟨⟨fun step hstep ↦ (hsteps step hstep).copied,
      fun step hstep ↦ (hsteps step hstep).fault, fun c hc ↦ (hconnections c hc).1⟩,
      fun step hstep ↦ (hsteps step hstep).short, fun c hc ↦ (hconnections c hc).2⟩, hlength⟩

namespace WellFormed

/-- **What can be written of a compiled schedule** is decided by its steps. -/
theorem compiledTextFault?_eq_none_iff (h : s.WellFormed) :
    s.compiledTextFault? = none ↔
      (∀ step ∈ s.steps, step.Written) ∧ s.steps.length ≤ Json.longInteger := by
  rw [Schedule.compiledTextFault?_eq_none_iff]
  refine and_congr_right fun _ ↦ ⟨And.right, fun hlength ↦ ⟨fun c hc ↦ ?_, hlength⟩⟩
  have hnormal : c.condition.normalized = c.condition := h.normalized c hc
  -- the places are too small to have too many digits, since the number of steps is
  obtain ⟨hst, htn⟩ := h.forward c hc
  have ht : c.target < Json.longInteger := htn.trans_le hlength
  refine ⟨?_, (Connection.hasLongInteger_runtime_eq_false_iff hnormal).mpr ⟨hst.trans ht, ht⟩⟩
  rw [Connection.writeFault?, ← hnormal]
  exact Branch.writeFault?_condition _

theorem compiledTextFault?_redrawn (h : s.WellFormed) (hs : s.compiledTextFault? = none) :
    s.redrawn.compiledTextFault? = none := by
  have h' : s.redrawn.WellFormed := Graph.wellFormed_compile _ _
  obtain ⟨hsteps, hlength⟩ := h.compiledTextFault?_eq_none_iff.mp hs
  rw [h'.compiledTextFault?_eq_none_iff, h.redrawable.length_redrawn_steps]
  exact ⟨fun step hstep ↦ hsteps step (h.perm_redrawn_steps.mem_iff.mp hstep), hlength⟩

end WellFormed

end Schedule

/-! ## Drawings -/

/-- Drawing a step adds no free value. -/
theorem Step.writeFault?_node (step : Step) (i : Nat) :
    (step.node i).writeFault? = step.writeFault? := rfl

theorem Edge.writeFault?_eq (e : Edge) : e.writeFault? = e.condition.writeFault? := by
  obtain ⟨id, source, target, kind, animated, data⟩ := e
  rcases data with _ | ⟨_ | condition, label⟩
  · rfl
  · rfl
  · rfl

/-- Whatever can be written as a schedule can be handed out as a drawing. -/
theorem Schedule.WellFormed.drawFault?_eq_none {s : Schedule} (h : s.WellFormed)
    (hsteps : ∀ step ∈ s.steps, step.Written) : s.drawFault? = none := by
  have hbuilt : s.buildFault? = none := by
    refine buildFault?_eq_none_iff.mpr ⟨fun step hstep ↦ ?_, fun c hc _ ↦ ?_⟩
    · have hwritten : step.Written := hsteps step hstep
      exact ⟨Step.hasLongCount_eq_false hwritten.short, hwritten.copied⟩
    · rw [← h.normalized c hc]
      exact Branch.isCopied_condition _
  rw [drawFault?, Option.or_eq_none_iff, Graph.writeFault?, Option.or_eq_none_iff,
    List.findSome?_eq_none_iff, List.findSome?_eq_none_iff]
  refine ⟨hbuilt, fun n hn ↦ ?_, fun e he ↦ ?_⟩
  · obtain ⟨i, hi, rfl⟩ := List.mem_mapIdx.mp hn
    rw [Step.writeFault?_node]
    exact (hsteps _ (List.getElem_mem hi)).fault
  · obtain ⟨c, hc, hshows⟩ := exists_shows_of_mem he
    rw [Edge.writeFault?_eq, hshows.condition, ← h.drawn_normalized hc]
    exact Branch.writeFault?_condition _

end AgentFlow
