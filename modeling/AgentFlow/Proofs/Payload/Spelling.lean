import AgentFlow.Proofs.Payload.Distinct
import AgentFlow.Proofs.Payload.Respelling

/-!
# Models in other spellings

The format of every model, and that a payload and its respelling are taken for the same model or
both refused (`read_respelled`). The values of a format that are not respelled are free values and
scalars, and objects all of whose fields have one spelling. What a model is written as in stored
spellings is what it is written as on the canvas, respelled.

There is one exception. The configuration of a node may stand next to its id, and so may be looked
for there: its fields belong to the format of a node. But they are moved into the data from canvas
spellings alone. Next to the id a field in the stored spelling is as good as missing
(`Node.read_withoutStored`), unless there is data, and then it does not matter at all. So a node is
respelled safely if these fields keep their spelling or there is data (`Node.SafelyRespelled`).
-/

namespace AgentFlow

open Reading (Respects)

/-! ## Targets and loops -/

/-- The fields of a call of an agent. -/
def AgentCall.format : Format := [(.agentCanisterId, Eq), (.agentConfig, Eq)]

theorem AgentCall.respects_read : Respects (Json.Respelled format) read :=
  Record.respects_read_pair rfl rfl (of_decide_eq_true rfl)

theorem AgentCall.respelled_write (call : AgentCall) :
    (call.write .wire).Respelled format (call.write .plain) := by
  apply Json.respelled_record (of_decide_eq_true rfl)
  iterate 2 refine .cons (.mk rfl rfl) ?_
  exact .nil

/-- The fields of a call of a workflow. -/
def WorkflowCall.format : Format := [(.agencyId, Eq), (.inputMapping, Eq)]

theorem WorkflowCall.respects_read : Respects (Json.Respelled format) read :=
  Record.respects_read_pair rfl rfl (of_decide_eq_true rfl)

theorem WorkflowCall.respelled_write (call : WorkflowCall) :
    (call.write .wire).Respelled format (call.write .plain) := by
  apply Json.respelled_record (of_decide_eq_true rfl)
  iterate 2 refine .cons (.mk rfl rfl) ?_
  exact .nil

/-- The fields of a step target, of which each belongs to one alternative. -/
def StepTarget.format : Format :=
  [(.agent, Json.Respelled AgentCall.format), (.agency, Json.Respelled WorkflowCall.format)]

theorem StepTarget.respects_read : Respects (Json.Respelled format) read := by
  have hkeys : AllApart format := of_decide_eq_true rfl
  have hagent : Respects (Json.Respelled format) readAgent :=
    Record.Respects.read (.map (.required rfl AgentCall.respects_read) _) hkeys
  have hworkflow : Respects (Json.Respelled format) readWorkflow :=
    Record.Respects.read (.map (.required rfl WorkflowCall.respects_read) _) hkeys
  apply Respects.oneOf
  simp only [List.forall_mem_cons]
  exact ⟨hagent, hworkflow, nofun⟩

theorem StepTarget.respelled_write (target : StepTarget) :
    (target.write .wire).Respelled format (target.write .plain) := by
  rcases target with call | call
  · apply Json.respelled_record (of_decide_eq_true rfl)
    exact .cons (.mk rfl call.respelled_write) .nil
  · apply Json.respelled_record (of_decide_eq_true rfl)
    exact .cons (.mk rfl call.respelled_write) .nil

/-- The fields of a run for each item. -/
def ForEach.format : Format :=
  [(.arraySource, Eq), (.itemVariable, Eq), (.indexVariable, Eq), (.maxIterations, Eq)]

theorem ForEach.respects_read : Respects (Json.Respelled format) read := by
  apply Record.Respects.read
  · exact .seq (.seq (.seq (.map (.required_kept rfl) _) (.optional_kept rfl))
      (.optional_kept rfl)) (.optional_kept rfl)
  · exact of_decide_eq_true rfl

theorem ForEach.respelled_write (loop : ForEach) :
    (loop.write .wire).Respelled format (loop.write .plain) := by
  apply Json.respelled_record (of_decide_eq_true rfl)
  iterate 4 refine .cons (.mk rfl rfl) ?_
  exact .nil

/-- The fields of a run while a condition holds. -/
def While.format : Format := [(.condition, Eq), (.maxIterations, Eq)]

theorem While.respects_read : Respects (Json.Respelled format) read :=
  Record.respects_read_pair rfl rfl (of_decide_eq_true rfl)

theorem While.respelled_write (loop : While) :
    (loop.write .wire).Respelled format (loop.write .plain) := by
  apply Json.respelled_record (of_decide_eq_true rfl)
  iterate 2 refine .cons (.mk rfl rfl) ?_
  exact .nil

/-- The fields of a number of runs. -/
def Repeat.format : Format := [(.count, Eq), (.indexVariable, Eq)]

theorem Repeat.respects_read : Respects (Json.Respelled format) read :=
  Record.respects_read_pair rfl rfl (of_decide_eq_true rfl)

theorem Repeat.respelled_write (loop : Repeat) :
    (loop.write .wire).Respelled format (loop.write .plain) := by
  apply Json.respelled_record (of_decide_eq_true rfl)
  iterate 2 refine .cons (.mk rfl rfl) ?_
  exact .nil

/-- The fields of a loop, of which each belongs to one alternative. -/
def Loop.format : Format :=
  [(.forEach, Json.Respelled ForEach.format), (.whileLoop, Json.Respelled While.format),
   (.repeated, Json.Respelled Repeat.format), (.none, Eq)]

theorem Loop.respects_read : Respects (Json.Respelled format) read := by
  have hkeys : AllApart format := of_decide_eq_true rfl
  have hforEach : Respects (Json.Respelled format) readForEach :=
    Record.Respects.read (.map (.required rfl ForEach.respects_read) _) hkeys
  have hwhile : Respects (Json.Respelled format) readWhile :=
    Record.Respects.read (.map (.required rfl While.respects_read) _) hkeys
  have hrepeat : Respects (Json.Respelled format) readRepeat :=
    Record.Respects.read (.map (.required rfl Repeat.respects_read) _) hkeys
  have honce : Respects (Json.Respelled format) readOnce :=
    Record.Respects.read (.map (.required_kept rfl) _) hkeys
  apply Respects.oneOf
  simp only [List.forall_mem_cons]
  exact ⟨hforEach, hwhile, hrepeat, honce, nofun⟩

theorem Loop.respelled_write (loop : Loop) :
    (loop.write .wire).Respelled format (loop.write .plain) := by
  rcases loop with loop | loop | loop | _
  · apply Json.respelled_record (of_decide_eq_true rfl)
    exact .cons (.mk rfl loop.respelled_write) .nil
  · apply Json.respelled_record (of_decide_eq_true rfl)
    exact .cons (.mk rfl loop.respelled_write) .nil
  · apply Json.respelled_record (of_decide_eq_true rfl)
    exact .cons (.mk rfl loop.respelled_write) .nil
  · apply Json.respelled_record (of_decide_eq_true rfl)
    exact .cons (.mk rfl rfl) .nil

/-! ## Conditions and edges -/

/-- The fields of a condition. -/
def Condition.format : Format :=
  [(.onSuccess, Eq), (.onFailure, Eq), (.always, Eq), (.ifContains, Eq), (.ifEquals, Eq)]

theorem Condition.respects_read : Respects (Json.Respelled format) read := by
  apply Record.Respects.read
  · refine .seq (.seq (.seq (.seq (.map ?_ _) ?_) ?_) ?_) ?_ <;> exact .optional_kept rfl
  · exact of_decide_eq_true rfl

theorem Condition.respelled_write (c : Condition) :
    (c.write .wire).Respelled format (c.write .plain) := by
  -- a comparison has one spelling, so both records hold the same values
  have hsame : c.entries .plain = c.entries .wire := rfl
  rw [write_eq, write_eq, hsame]
  apply Json.respelled_record (c.allApart_entries .wire).presentFields
  refine List.forall₂_same.mpr fun ⟨k, v⟩ hf ↦ ?_
  have hk : k ∈ (c.entries .wire).map Prod.fst :=
    (keys_presentFields_sublist _).subset (List.mem_map_of_mem hf)
  simp only [entries, List.map_cons, List.map_nil, List.mem_cons, List.not_mem_nil, or_false] at hk
  rcases hk with rfl | rfl | rfl | rfl | rfl <;> exact .mk rfl rfl

/-- The fields of what is attached to an edge. -/
def EdgeData.format : Format := [(.condition, Json.Respelled Condition.format), (.label, Eq)]

theorem EdgeData.respects_read : Respects (Json.Respelled format) read := by
  apply Record.Respects.read
  · exact .seq (.map (.optional rfl Condition.respects_read.nullable_respelled) _)
      (.optional_kept rfl)
  · exact of_decide_eq_true rfl

theorem EdgeData.respelled_write (d : EdgeData) :
    (d.write .wire).Respelled format (d.write .plain) := by
  apply Json.respelled_record (of_decide_eq_true rfl)
  refine .cons (.mk rfl ?_) (.cons (.mk rfl rfl) .nil)
  exact .ofOption Condition.respelled_write d.condition

/-- The fields of an edge. -/
def Edge.format : Format :=
  [(.id, Eq), (.source, Eq), (.target, Eq), (.type, Eq), (.animated, Eq),
   (.data, Json.Respelled EdgeData.format)]

theorem Edge.respects_read : Respects (Json.Respelled format) read := by
  apply Record.Respects.read
  · refine .seq (.seq (.seq (.seq (.seq (.map ?_ _) ?_) ?_) ?_) ?_) ?_
    · exact .required_kept rfl
    · exact .required_kept rfl
    · exact .required_kept rfl
    · exact .optional_kept rfl
    · exact .optional_kept rfl
    · exact .optional rfl EdgeData.respects_read.nullable_respelled
  · exact of_decide_eq_true rfl

theorem Edge.respelled_write (e : Edge) :
    (e.write .wire).Respelled format (e.write .plain) := by
  apply Json.respelled_record (of_decide_eq_true rfl)
  iterate 5 refine .cons (.mk rfl rfl) ?_
  exact .cons (.mk rfl (.ofOption EdgeData.respelled_write e.data)) .nil

/-! ## Nodes -/

/-- The fields of a configuration. -/
def NodeData.format : Format :=
  [(.agentCanisterId, Eq), (.agentName, Eq), (.inputTemplate, Eq), (.requiresApproval, Eq),
   (.retryOnFailure, Eq), (.timeout, Eq), (.description, Eq), (.icon, Eq), (.status, Eq),
   (.validationErrors, Eq), (.agentConfig, Eq), (.triggerConfig, Eq),
   (.stepTarget, Json.Respelled StepTarget.format), (.loopConfig, Json.Respelled Loop.format)]

namespace NodeData

theorem allApart_format : AllApart format := of_decide_eq_true rfl

theorem respects_read : Respects (Json.Respelled format) read := by
  have htarget : (Record.optional .stepTarget none (Reading.nullable StepTarget.read)).Respects
      format := .optional rfl StepTarget.respects_read.nullable_respelled
  have hloop : (Record.optional .loopConfig none (Reading.nullable Loop.read)).Respects format :=
    .optional rfl Loop.respects_read.nullable_respelled
  apply Record.Respects.read
  · refine .seq (.seq ?_ htarget) hloop
    -- all other fields are scalars and free values
    iterate 11 refine .seq ?_ (.optional_kept rfl)
    exact .map (.optional_kept rfl) _
  · exact allApart_format

theorem respelled_write (d : NodeData) :
    (d.write .wire).Respelled format (d.write .plain) := by
  apply Json.respelled_record (of_decide_eq_true rfl)
  iterate 12 refine .cons (.mk rfl rfl) ?_
  refine .cons (.mk rfl ?_) (.cons (.mk rfl ?_) .nil)
  · exact .ofOption StepTarget.respelled_write d.stepTarget
  · exact .ofOption Loop.respelled_write d.loopConfig

end NodeData

namespace Node

/-- The fields that are read as those of a node. -/
def ownFormat : Format :=
  [(.id, Eq), (.type, Eq), (.position, Eq), (.data, Json.Respelled NodeData.format)]

/-- The fields of a node, and those of its configuration that may stand next to them. -/
def format : Format := ownFormat ++ NodeData.format.filter fun e ↦ e.1 ∈ liftedKeys

/-- Whether one node is another one respelled. -/
def Respelled : Json → Json → Prop := Json.Respelled format

theorem allApart_ownFormat : AllApart ownFormat := of_decide_eq_true rfl

theorem allApart_format : AllApart format := of_decide_eq_true rfl

theorem respects_record : record.Respects ownFormat := by
  refine .seq (.seq (.seq (.map ?_ _) ?_) ?_) ?_
  · exact .required_kept rfl
  · exact .optional_kept rfl
  · exact .optional_kept rfl
  · exact .optional rfl NodeData.respects_read

theorem liftData_object (fields : Fields) :
    liftData (.object fields) =
      if (fields.get? Key.data.wire).any Json.isTruthy ∨ (lifted fields).isEmpty then .object fields
      else .object (fields.put Key.data.wire (.object (lifted fields))) := rfl

section Objects

variable {fields others : Fields}

/-- What is moved into the data of a node is respelled as the data are. -/
theorem forall₂_lifted
    (h : ∀ ⦃k R⦄, (k, R) ∈ NodeData.format → k ∈ liftedKeys →
      Option.Rel R (fields.get? k.wire) (others.get? k.wire)) :
    List.Forall₂ (Field.Respelled NodeData.format) (lifted fields) (lifted others) := by
  have hkeys : ∀ k ∈ liftedKeys, k ∈ NodeData.format.map Prod.fst := by decide
  have hsame : List.Forall₂ (fun k l ↦ k = l ∧ k ∈ liftedKeys) liftedKeys liftedKeys :=
    List.forall₂_same.mpr fun k hk ↦ ⟨rfl, hk⟩
  refine List.rel_filterMap ?_ hsame
  rintro k _ ⟨rfl, hk⟩
  obtain ⟨⟨_, R⟩, hR, rfl⟩ := List.mem_map.mp (hkeys k hk)
  have hvalue := h hR hk
  dsimp only
  generalize fields.get? _ = o at hvalue ⊢
  generalize others.get? _ = p at hvalue ⊢
  rcases hvalue with hvw | _
  · exact .some (Field.Respelled.kept hR .wire hvw)
  · exact .none

theorem mem_ownFormat_data : (Key.data, Json.Respelled NodeData.format) ∈ ownFormat :=
  AllApart.mem_of_lookup rfl

/-- There is data in both nodes or in neither. -/
theorem any_isTruthy_data_eq (hown : Fields.Matches ownFormat fields others) :
    (fields.get? Key.data.wire).any Json.isTruthy
      = (others.get? Key.data.wire).any Json.isTruthy := by
  have hdata := hown mem_ownFormat_data
  rw [Key.data, Fields.find?_same, Fields.find?_same] at hdata
  rw [Key.data, Key.same]
  generalize fields.get? _ = o at hdata ⊢
  generalize others.get? _ = p at hdata ⊢
  rcases o with - | v <;> rcases p with - | w
  · rfl
  · cases hdata
  · cases hdata
  · have hvw : v.Respelled NodeData.format w := by simpa using hdata
    exact hvw.isTruthy_eq

/-- Two nodes are taken for the same if their own fields are found alike, and there is data or the
fields that are moved into it are found alike as well. -/
theorem read_agree (hown : Fields.Matches ownFormat fields others)
    (hlifted : (fields.get? Key.data.wire).any Json.isTruthy ∨
      ∀ ⦃k R⦄, (k, R) ∈ NodeData.format → k ∈ liftedKeys →
        Option.Rel R (fields.get? k.wire) (others.get? k.wire)) :
    (read (.object fields)).Agree (read (.object others)) := by
  rw [read, read, liftData_object, liftData_object, ← any_isTruthy_data_eq hown]
  rcases hlifted with hdata | hlifted
  · rw [if_pos (.inl hdata), if_pos (.inl hdata)]
    exact respects_record hown
  · have hmoved := forall₂_lifted hlifted
    have hempty : (lifted fields).isEmpty = (lifted others).isEmpty := by
      rw [Bool.eq_iff_iff, List.isEmpty_iff_length_eq_zero, List.isEmpty_iff_length_eq_zero,
        hmoved.length_eq]
    rw [← hempty]
    split
    next => exact respects_record hown
    next =>
      have hdata :
          (Json.object (lifted fields)).Respelled NodeData.format (.object (lifted others)) :=
        .object ⟨hmoved, nodup_lifted fields, nodup_lifted others⟩
      exact respects_record (hown.put allApart_ownFormat mem_ownFormat_data hdata)

end Objects

/-- Whether one node is another one respelled, but the fields of its configuration that stand next
to its id keep their spellings unless there is data. -/
def SafelyRespelled (v w : Json) : Prop :=
  Respelled v w ∧ ((v.get? Key.data.wire).any Json.isTruthy ∨
    ∀ k ∈ liftedKeys, (v.get? k.wire).isSome = (w.get? k.wire).isSome)

theorem respects_read : Respects SafelyRespelled read := by
  rintro _ _ ⟨v | hfields, hsafe⟩
  · exact .refl _
  · have hmatch := hfields.matches allApart_format
    apply read_agree
    · exact fun k R hk ↦ hmatch (List.mem_append_left _ hk)
    · refine hsafe.imp_right fun hkeep k R hk hmoved ↦ ?_
      have hmem : (k, R) ∈ format :=
        List.mem_append_right _ (List.mem_filter.mpr ⟨hk, decide_eq_true hmoved⟩)
      exact Fields.get?_rel_of_find?_rel (hmatch hmem) (hkeep k hmoved)

theorem respelled_write (n : Node) : SafelyRespelled (n.write .wire) (n.write .plain) := by
  constructor
  · apply Json.respelled_record (of_decide_eq_true rfl)
    iterate 3 refine .cons (.mk rfl rfl) ?_
    exact .cons (.mk rfl n.data.respelled_write) .nil
  · have hdata : (n.write .wire).get? Key.data.wire = some (n.data.write .wire) :=
      Fields.get?_spelled_same (of_decide_eq_true rfl) rfl (AllApart.mem_of_lookup rfl)
    rw [hdata]
    exact .inl rfl

/-! ### Stored spellings next to the id -/

/-- The stored spellings of the fields that may stand next to the id of a node. -/
def storedNames : List Text :=
  (liftedKeys.filter fun k ↦ k.plain ≠ k.wire).map fun k ↦ Text.ofString k.plain

/-- A node without what goes by these names. -/
def withoutStored : Json → Json
  | .object fields => .object (fields.filter fun f ↦ f.1 ∉ storedNames)
  | v => v

/-- **Next to the id of a node, stored spellings are not read.** -/
theorem read_withoutStored (v : Json) : (read (withoutStored v)).Agree (read v) := by
  have hown : ∀ k ∈ ownFormat.map Prod.fst,
      Text.ofString k.wire ∉ storedNames ∧ Text.ofString k.plain ∉ storedNames := by decide
  have hmoved : ∀ k ∈ liftedKeys, Text.ofString k.wire ∉ storedNames := by decide
  -- the values that are found are the same, and every value may stay
  have hrefl : ∀ e ∈ ownFormat, ∀ v, e.2 v v := by
    simp [ownFormat, Json.Respelled.refl]
  have hreflData : ∀ e ∈ NodeData.format, ∀ v, e.2 v v := by
    simp [NodeData.format, Json.Respelled.refl]
  have hget : ∀ fields : Fields, ∀ name ∉ storedNames,
      Fields.get? (fields.filter fun f ↦ f.1 ∉ storedNames) name = fields.get? name :=
    fun fields name hname ↦
      Fields.get?_filter (p := fun name ↦ name ∉ storedNames) (decide_eq_true hname) fields
  cases v with
  | null | bool _ | int _ | float _ | string _ | array _ => exact .refl _
  | object fields =>
    apply read_agree
    · intro k R hk
      obtain ⟨hwire, hplain⟩ := hown k (List.mem_map_of_mem hk)
      rw [Fields.find?, hget fields _ hwire, hget fields _ hplain, ← Fields.find?]
      exact optionRel_refl (fun p ↦ hrefl _ hk p.2) _
    · refine .inr fun k R hk hlift ↦ ?_
      rw [hget fields _ (hmoved k hlift)]
      exact optionRel_refl (hreflData _ hk) _

end Node

/-! ## Canvases, schedules and templates -/

/-- The fields of a canvas. -/
def Graph.format : Format :=
  [(.nodes, Json.RespelledItems Node.SafelyRespelled),
   (.edges, Json.RespelledItems (Json.Respelled Edge.format))]

theorem Graph.respects_read : Respects (Json.Respelled format) read := by
  apply Record.Respects.read
  · exact .seq (.map (.optional rfl Node.respects_read.list) _)
      (.optional rfl Edge.respects_read.list)
  · exact of_decide_eq_true rfl

theorem Graph.respelled_write (g : Graph) :
    (g.write .wire).Respelled format (g.write .plain) := by
  apply Json.respelled_record (of_decide_eq_true rfl)
  refine .cons (.mk rfl ?_) (.cons (.mk rfl ?_) .nil)
  · exact .ofList Node.respelled_write g.nodes
  · exact .ofList Edge.respelled_write g.edges

/-- The fields of a step. -/
def Step.format : Format :=
  [(.agentCanisterId, Eq), (.agentName, Eq), (.inputTemplate, Eq), (.requiresApproval, Eq),
   (.retryOnFailure, Eq), (.timeout, Eq), (.triggerConfig, Eq),
   (.stepTarget, Json.Respelled StepTarget.format), (.loopConfig, Json.Respelled Loop.format)]

theorem Step.respects_read : Respects (Json.Respelled format) read := by
  have htarget : (Record.optional .stepTarget none (Reading.nullable StepTarget.read)).Respects
      format := .optional rfl StepTarget.respects_read.nullable_respelled
  have hloop : (Record.optional .loopConfig none (Reading.nullable Loop.read)).Respects format :=
    .optional rfl Loop.respects_read.nullable_respelled
  apply Record.Respects.read
  · refine .seq (.seq ?_ htarget) hloop
    iterate 6 refine .seq ?_ (.optional_kept rfl)
    exact .map (.required_kept rfl) _
  · exact of_decide_eq_true rfl

theorem Step.respelled_write (step : Step) :
    (step.write .wire).Respelled format (step.write .plain) := by
  apply Json.respelled_record (of_decide_eq_true rfl)
  iterate 7 refine .cons (.mk rfl rfl) ?_
  refine .cons (.mk rfl ?_) (.cons (.mk rfl ?_) .nil)
  · exact .ofOption StepTarget.respelled_write step.stepTarget
  · exact .ofOption Loop.respelled_write step.loopConfig

/-- The fields of a connection. -/
def Connection.format : Format :=
  [(.sourceStepIndex, Eq), (.targetStepIndex, Eq), (.condition, Json.Respelled Condition.format)]

theorem Connection.respects_read : Respects (Json.Respelled format) read := by
  apply Record.Respects.read
  · exact .seq (.seq (.map (.required_kept rfl) _) (.required_kept rfl))
      (.optional rfl Condition.respects_read)
  · exact of_decide_eq_true rfl

theorem Connection.respelled_write (c : Connection) :
    (c.write .wire).Respelled format (c.write .plain) := by
  apply Json.respelled_record (of_decide_eq_true rfl)
  iterate 2 refine .cons (.mk rfl rfl) ?_
  exact .cons (.mk rfl c.condition.respelled_write) .nil

/-- The fields of a template. -/
def Template.format : Format :=
  [(.id, Eq), (.name, Eq), (.description, Eq), (.category, Eq)] ++ Graph.format ++
    [(.executionMode, Eq), (.thumbnail, Eq), (.difficulty, Eq), (.estimatedTime, Eq), (.tags, Eq)]

theorem Template.respects_read : Respects (Json.Respelled format) read := by
  apply Record.Respects.read
  · iterate 5 refine .seq ?_ (.optional_kept rfl)
    refine .seq (.seq ?_ (.optional rfl Node.respects_read.list))
      (.optional rfl Edge.respects_read.list)
    exact .seq (.seq (.seq (.map (.required_kept rfl) _) (.required_kept rfl))
      (.optional_kept rfl)) (.optional_kept rfl)
  · exact of_decide_eq_true rfl

theorem Template.respelled_write (t : Template) :
    (t.write .wire).Respelled format (t.write .plain) := by
  apply Json.respelled_record (of_decide_eq_true rfl)
  iterate 4 refine .cons (.mk rfl rfl) ?_
  refine .cons (.mk rfl ?_) (.cons (.mk rfl ?_) ?_)
  · exact .ofList Node.respelled_write t.nodes
  · exact .ofList Edge.respelled_write t.edges
  · iterate 5 refine .cons (.mk rfl rfl) ?_
    exact .nil

/-! ## Main results -/

/-- **Respelled payloads are taken for the same models.** A payload and its respelling are both
refused, or both taken for one model, and so are written alike. What stands next to the id of a node
has to keep its spelling for that, unless there is data: in the stored spelling it is not read, for
the node is taken for what it would be taken for without it. -/
theorem read_respelled (v w : Json) :
    (Node.SafelyRespelled v w → (Node.read v).value? = (Node.read w).value?)
      ∧ (Json.Respelled Edge.format v w → (Edge.read v).value? = (Edge.read w).value?)
      ∧ (Json.Respelled Graph.format v w → (Graph.read v).value? = (Graph.read w).value?)
      ∧ (Json.Respelled Step.format v w → (Step.read v).value? = (Step.read w).value?)
      ∧ (Json.Respelled Connection.format v w →
        (Connection.read v).value? = (Connection.read w).value?)
      ∧ (Json.Respelled Template.format v w → (Template.read v).value? = (Template.read w).value?)
      ∧ (Node.read v).value? = (Node.read (Node.withoutStored v)).value? :=
  ⟨fun h ↦ (Node.respects_read h).value?_eq, fun h ↦ (Edge.respects_read h).value?_eq,
    fun h ↦ (Graph.respects_read h).value?_eq, fun h ↦ (Step.respects_read h).value?_eq,
    fun h ↦ (Connection.respects_read h).value?_eq, fun h ↦ (Template.respects_read h).value?_eq,
    (Node.read_withoutStored v).value?_eq.symm⟩

/-- An agent without a canister. -/
def bareAgent : Node where
  id := "a"
  kind := .agent
  position := .origin
  data := .empty

/-- The agent with a canister. -/
def canisterAgent : Node where
  id := "a"
  kind := .agent
  position := .origin
  data := { NodeData.empty with canisterId := some "aaaaa-aa" }

/-- An edge from the agent to itself that is followed on success. -/
def retryEdge : Edge where
  id := "e"
  source := "a"
  target := "a"
  kind := .default
  animated := false
  data := some ⟨some (Branch.condition .onSuccess), none⟩

/-- A template with both. -/
def retryTemplate : Template where
  id := "t"
  name := "Retry"
  description := ""
  category := "general"
  nodes := [bareAgent]
  edges := [retryEdge]
  mode := .sequential
  thumbnail := none
  difficulty := "intermediate"
  estimatedTime := ""
  tags := []

/-- The target of a step that calls an agent. -/
def agentTarget : StepTarget := .agent ⟨"aaaaa-aa", .null⟩

/-- The loop of a step that runs three times. -/
def threeRuns : Loop := .repeated ⟨3, some "index"⟩

/-- A step with both. -/
def loopStep : Step :=
  ⟨"aaaaa-aa", "", "", false, false, none, none, some agentTarget, some threeRuns⟩

/-- A node whose target and loop stand next to its id. -/
def flatNode (s : Spelling) : Json :=
  .record .wire
    [(.id, .string "a"), (.stepTarget, agentTarget.write s), (.loopConfig, threeRuns.write s)]

/-- The node with both in its data. -/
def loopNode : Node where
  id := "a"
  kind := .agent
  position := .origin
  data := { NodeData.empty with stepTarget := some agentTarget, loopConfig := some threeRuns }

/-- Target and loop are respelled within; next to the id they go by the names that they had. -/
theorem safelyRespelled_flatNode :
    Node.SafelyRespelled (flatNode .wire) (flatNode .plain) := by
  constructor
  · refine .object ⟨.cons ?_ (.cons ?_ (.cons ?_ .nil)), by decide, by decide⟩
    · exact Field.Respelled.kept (k := .id) (R := Eq) (AllApart.mem_of_lookup rfl) .wire rfl
    · exact Field.Respelled.kept (k := .stepTarget) (AllApart.mem_of_lookup rfl) .wire
        agentTarget.respelled_write
    · exact Field.Respelled.kept (k := .loopConfig) (AllApart.mem_of_lookup rfl) .wire
        threeRuns.respelled_write
  · exact .inr (by decide)

theorem read_respelled_written :
    (Node.read (flatNode .wire)).value? = (Node.read (flatNode .plain)).value?
      ∧ (Edge.read (retryEdge.write .wire)).value? = (Edge.read (retryEdge.write .plain)).value?
      ∧ (Graph.read (Graph.empty.write .wire)).value?
        = (Graph.read (Graph.empty.write .plain)).value?
      ∧ (Step.read (loopStep.write .wire)).value? = (Step.read (loopStep.write .plain)).value?
      ∧ (Connection.read (Connection.write .wire ⟨0, 0, .alwaysTrue⟩)).value?
        = (Connection.read (Connection.write .plain ⟨0, 0, .alwaysTrue⟩)).value?
      ∧ (Template.read (retryTemplate.write .wire)).value?
        = (Template.read (retryTemplate.write .plain)).value?
      ∧ (Node.read (flatNode .plain)).value? = some loopNode
      ∧ (Edge.read (retryEdge.write .plain)).value? = some retryEdge
      ∧ (Step.read (loopStep.write .plain)).value? = some loopStep :=
  ⟨(read_respelled _ _).1 safelyRespelled_flatNode,
    (read_respelled _ _).2.1 retryEdge.respelled_write,
    (read_respelled _ _).2.2.1 Graph.empty.respelled_write,
    (read_respelled _ _).2.2.2.1 loopStep.respelled_write,
    (read_respelled _ _).2.2.2.2.1 (Connection.respelled_write _),
    (read_respelled _ _).2.2.2.2.2.1 retryTemplate.respelled_write,
    by decide +kernel, by decide +kernel, by decide +kernel⟩

/-- An agent whose canister stands next to its id. -/
def flatAgent (s : Spelling) : Json :=
  .record s [(.id, .string "a"), (.agentCanisterId, .string "aaaaa-aa")]

/-- The stored spelling next to the id of a node loses the canister of an agent. -/
theorem exists_unlike_respelled :
    ∃ v w, Node.Respelled v w ∧
      ∃ n m, (Node.read v).value? = some n ∧ (Node.read w).value? = some m ∧
        n.write .wire ≠ m.write .wire := by
  have hfields : Json.Respelled Node.format (flatAgent .wire) (flatAgent .plain) := by
    refine .object ⟨.cons ?_ (.cons ?_ .nil), by decide, by decide⟩
    · exact Field.Respelled.kept (k := .id) (R := Eq) (AllApart.mem_of_lookup rfl) .wire rfl
    · exact Field.Respelled.changed (k := .agentCanisterId) (AllApart.mem_of_lookup rfl) rfl
  exact ⟨_, _, hfields, canisterAgent, bareAgent, rfl, rfl, by decide⟩

end AgentFlow
