import AgentFlow.Canvas.Graph
import AgentFlow.Proofs.Payload.Parts
import AgentFlow.Schedule.Basic
import AgentFlow.Template.Basic

/-!
# Reading models that were written

Nodes, edges, steps, connections, templates and schedules come back from their written form, in
whichever spelling it was written, with every field as it was and their free values as those are
written (`settled`).
-/

namespace AgentFlow

/-! ## Names of choices -/

namespace Reading

variable {α : Type} {ofName? : Text → Option α} {cause : Cause}

theorem value?_choice {name : String} {a : α} (h : ofName? name = some a) :
    (choice ofName? cause (.string name)).value? = some a := by
  rw [choice, h]
  rfl

end Reading

theorem NodeKind.ofName?_name (k : NodeKind) : NodeKind.ofName? k.name = some k := by
  cases k <;> rfl

theorem NodeStatus.ofName?_name (s : NodeStatus) : NodeStatus.ofName? s.name = some s := by
  cases s <;> rfl

theorem EdgeKind.ofName?_name (k : EdgeKind) : EdgeKind.ofName? k.name = some k := by
  cases k <;> rfl

theorem ExecutionMode.ofName?_name (m : ExecutionMode) :
    ExecutionMode.ofName? m.name = some m := by
  cases m <;> rfl

/-! ## Nodes -/

theorem Position.value?_read_write (p : Position) : (read p.write).value? = some p := by
  refine Record.value?_read_record (of_decide_eq_true rfl) fun hkeys ↦ ?_
  exact (hkeys.optional rfl rfl).map _ |>.seq (hkeys.optional rfl rfl)

theorem value?_nullable_timeout (t : Option Timeout) :
    (Reading.nullable Timeout.read (.ofOption Timeout.write t)).value? = some t :=
  Reading.value?_nullable_self Timeout.write_ne_null Timeout.value?_read_write t

theorem value?_nullable_mapping (m : Option Fields) :
    (Reading.nullable Reading.mapping (.ofOption Fields.write m)).value?
      = some (m.map Fields.settled) :=
  Reading.value?_nullable nofun fun _ _ ↦ rfl

theorem value?_nullable_target (s : Spelling) (t : Option StepTarget) :
    (Reading.nullable StepTarget.read (.ofOption (StepTarget.write s) t)).value?
      = some (t.map StepTarget.settled) :=
  Reading.value?_nullable (StepTarget.write_ne_null s) fun t _ ↦ t.value?_read_write s

theorem value?_nullable_loop (s : Spelling) (l : Option Loop) :
    (Reading.nullable Loop.read (.ofOption (Loop.write s) l)).value? = some l :=
  Reading.value?_nullable_self (Loop.write_ne_null s) (Loop.value?_read_write s) l

namespace NodeData

/-- The configuration with its free values as they are written. -/
def settled (d : NodeData) : NodeData :=
  { d with
    agentConfig := d.agentConfig.finite
    triggerConfig := d.triggerConfig.map Fields.settled
    stepTarget := d.stepTarget.map StepTarget.settled }

/-- Whether the free values and free mappings of a configuration are of some kind. -/
def AllFree (values : Json → Prop) (mappings : Fields → Prop) (d : NodeData) : Prop :=
  values d.agentConfig ∧ (∀ m ∈ d.triggerConfig, mappings m) ∧
    ∀ t ∈ d.stepTarget, ∀ v ∈ t.freeValues, values v

theorem settled_eq_self_iff {d : NodeData} :
    d.settled = d ↔ d.AllFree Json.IsPlain Fields.IsPlain := by
  obtain ⟨_, _, _, _, _, _, _, _, _, _, config, trigger, target, _⟩ := d
  simp [settled, AllFree, Json.IsPlain, optionMap_eq_self_iff, Fields.settled_eq_self_iff,
    StepTarget.settled_eq_self_iff]

theorem write_settled (s : Spelling) (d : NodeData) : d.settled.write s = d.write s := by
  simp only [write, settled, Json.finite_finite, Json.ofOption_map, Fields.write_settled,
    StepTarget.write_settled]

theorem value?_read_write (s : Spelling) (d : NodeData) :
    (read (d.write s)).value? = some d.settled := by
  refine Record.value?_read_record (of_decide_eq_true rfl) fun hkeys ↦ ?_
  exact (hkeys.optional rfl (value?_nullable_text _)).map _
    |>.seq (hkeys.optional rfl rfl)
    |>.seq (hkeys.optional rfl rfl)
    |>.seq (hkeys.optional rfl rfl)
    |>.seq (hkeys.optional rfl rfl)
    |>.seq (hkeys.optional rfl (value?_nullable_timeout _))
    |>.seq (hkeys.optional rfl (value?_nullable_text _))
    |>.seq (hkeys.optional rfl (value?_nullable_text _))
    |>.seq (hkeys.optional rfl (Reading.value?_choice (NodeStatus.ofName?_name _)))
    |>.seq (hkeys.optional rfl (Reading.value?_list_self (fun _ ↦ rfl) _))
    |>.seq (hkeys.optional rfl rfl)
    |>.seq (hkeys.optional rfl (value?_nullable_mapping _))
    |>.seq (hkeys.optional rfl (value?_nullable_target s _))
    |>.seq (hkeys.optional rfl (value?_nullable_loop s _))

end NodeData

namespace Node

/-- The node with its free values as they are written. -/
def settled (n : Node) : Node := { n with data := n.data.settled }

/-- A node that was written has its configuration under `data` already. -/
theorem liftData_write (s : Spelling) (n : Node) : liftData (n.write s) = n.write s := by
  have hdata : Fields.get? (.spelled s [(.id, .string n.id), (.type, .string n.kind.name),
      (.position, n.position.write), (.data, n.data.write s)]) Key.data.wire
        = some (n.data.write s) :=
    Fields.get?_spelled_same (of_decide_eq_true rfl) rfl (by simp)
  apply if_pos
  rw [← Fields.spelled, hdata]
  exact .inl rfl

/-- Whether the free values and free mappings of a node are of some kind. -/
def AllFree (values : Json → Prop) (mappings : Fields → Prop) (n : Node) : Prop :=
  n.data.AllFree values mappings

theorem settled_eq_self_iff {n : Node} :
    n.settled = n ↔ n.AllFree Json.IsPlain Fields.IsPlain := by
  obtain ⟨id, kind, position, data⟩ := n
  simp [settled, AllFree, NodeData.settled_eq_self_iff]

theorem write_settled (s : Spelling) (n : Node) : n.settled.write s = n.write s := by
  simp only [write, settled, NodeData.write_settled]

theorem value?_read_write (s : Spelling) (n : Node) :
    (read (n.write s)).value? = some n.settled := by
  rw [read, liftData_write]
  refine Record.value?_read_record (of_decide_eq_true rfl) fun hkeys ↦ ?_
  exact (hkeys.required rfl rfl).map _
    |>.seq (hkeys.optional rfl (Reading.value?_choice (NodeKind.ofName?_name _)))
    |>.seq (hkeys.optional rfl n.position.value?_read_write)
    |>.seq (hkeys.optional rfl (n.data.value?_read_write s))

end Node

/-! ## Edges -/

namespace EdgeData

/-- What is attached to an edge with its free values as they are written. -/
def settled (d : EdgeData) : EdgeData := { d with condition := d.condition.map Condition.settled }

theorem settled_eq_self_iff {d : EdgeData} :
    d.settled = d ↔ ∀ c ∈ d.condition, ∀ v ∈ c.markers, v.IsPlain := by
  obtain ⟨condition, label⟩ := d
  simp [settled, optionMap_eq_self_iff, Condition.settled_eq_self_iff]

theorem write_settled (s : Spelling) (d : EdgeData) : d.settled.write s = d.write s := by
  simp only [write, settled, Json.ofOption_map, Condition.write_settled]

theorem value?_read_write (s : Spelling) (d : EdgeData) :
    (read (d.write s)).value? = some d.settled := by
  have hcondition : (Reading.nullable Condition.read
      (.ofOption (Condition.write s) d.condition)).value?
        = some (d.condition.map Condition.settled) :=
    Reading.value?_nullable nofun fun c _ ↦ c.value?_read_write s
  refine Record.value?_read_record (of_decide_eq_true rfl) fun hkeys ↦ ?_
  exact (hkeys.optional rfl hcondition).map _
    |>.seq (hkeys.optional rfl (value?_nullable_text _))

end EdgeData

namespace Edge

/-- The edge with its free values as they are written. -/
def settled (e : Edge) : Edge := { e with data := e.data.map EdgeData.settled }

/-- Whether the free values of an edge are of some kind. -/
def AllFree (values : Json → Prop) (e : Edge) : Prop :=
  ∀ d ∈ e.data, ∀ c ∈ d.condition, ∀ v ∈ c.markers, values v

theorem settled_eq_self_iff {e : Edge} : e.settled = e ↔ e.AllFree Json.IsPlain := by
  obtain ⟨id, source, target, kind, animated, data⟩ := e
  simp [settled, AllFree, optionMap_eq_self_iff, EdgeData.settled_eq_self_iff]

theorem write_settled (s : Spelling) (e : Edge) : e.settled.write s = e.write s := by
  simp only [write, settled, Json.ofOption_map, EdgeData.write_settled]

theorem value?_read_write (s : Spelling) (e : Edge) :
    (read (e.write s)).value? = some e.settled := by
  have hdata : (Reading.nullable EdgeData.read (.ofOption (EdgeData.write s) e.data)).value?
      = some (e.data.map EdgeData.settled) :=
    Reading.value?_nullable nofun fun d _ ↦ d.value?_read_write s
  refine Record.value?_read_record (of_decide_eq_true rfl) fun hkeys ↦ ?_
  exact (hkeys.required rfl rfl).map _
    |>.seq (hkeys.required rfl rfl)
    |>.seq (hkeys.required rfl rfl)
    |>.seq (hkeys.optional rfl (Reading.value?_choice (EdgeKind.ofName?_name _)))
    |>.seq (hkeys.optional rfl rfl)
    |>.seq (hkeys.optional rfl hdata)

end Edge

/-! ## Canvases -/

namespace Graph

/-- The canvas with its free values as they are written. -/
def settled (g : Graph) : Graph := ⟨g.nodes.map Node.settled, g.edges.map Edge.settled⟩

/-- Whether the free values and free mappings of a canvas are of some kind. -/
def AllFree (values : Json → Prop) (mappings : Fields → Prop) (g : Graph) : Prop :=
  (∀ n ∈ g.nodes, n.AllFree values mappings) ∧ ∀ e ∈ g.edges, e.AllFree values

theorem settled_eq_self_iff {g : Graph} :
    g.settled = g ↔ g.AllFree Json.IsPlain Fields.IsPlain := by
  obtain ⟨nodes, edges⟩ := g
  simp [settled, AllFree, listMap_eq_self_iff, Node.settled_eq_self_iff, Edge.settled_eq_self_iff]

theorem write_settled (s : Spelling) (g : Graph) : g.settled.write s = g.write s := by
  simp only [write, settled, Json.ofList_map, Node.write_settled, Edge.write_settled]

end Graph

/-! ## Steps and connections -/

namespace Step

/-- The step with its free values as they are written. -/
def settled (step : Step) : Step :=
  { step with
    triggerConfig := step.triggerConfig.map Fields.settled
    stepTarget := step.stepTarget.map StepTarget.settled }

/-- Whether the free values and free mappings of a step are of some kind. -/
def AllFree (values : Json → Prop) (mappings : Fields → Prop) (step : Step) : Prop :=
  (∀ m ∈ step.triggerConfig, mappings m) ∧ ∀ t ∈ step.stepTarget, ∀ v ∈ t.freeValues, values v

theorem settled_eq_self_iff {step : Step} :
    step.settled = step ↔ step.AllFree Json.IsPlain Fields.IsPlain := by
  obtain ⟨_, _, _, _, _, _, trigger, target, _⟩ := step
  simp [settled, AllFree, optionMap_eq_self_iff, Fields.settled_eq_self_iff,
    StepTarget.settled_eq_self_iff]

theorem write_settled (s : Spelling) (step : Step) : step.settled.write s = step.write s := by
  simp only [write, fields, requiredFields, optionalFields, settled, Json.ofOption_map,
    Fields.write_settled, StepTarget.write_settled]

theorem value?_read_write (s : Spelling) (step : Step) :
    (read (step.write s)).value? = some step.settled := by
  refine Record.value?_read_record (of_decide_eq_true rfl) fun hkeys ↦ ?_
  exact (hkeys.required rfl rfl).map _
    |>.seq (hkeys.optional rfl rfl)
    |>.seq (hkeys.optional rfl rfl)
    |>.seq (hkeys.optional rfl rfl)
    |>.seq (hkeys.optional rfl rfl)
    |>.seq (hkeys.optional rfl (value?_nullable_timeout _))
    |>.seq (hkeys.optional rfl (value?_nullable_mapping _))
    |>.seq (hkeys.optional rfl (value?_nullable_target s _))
    |>.seq (hkeys.optional rfl (value?_nullable_loop s _))

end Step

namespace Connection

/-- The connection with its free values as they are written. -/
def settled (c : Connection) : Connection := { c with condition := c.condition.settled }

/-- Whether the free values of a connection are of some kind. -/
def AllFree (values : Json → Prop) (c : Connection) : Prop := ∀ v ∈ c.condition.markers, values v

theorem settled_eq_self_iff {c : Connection} : c.settled = c ↔ c.AllFree Json.IsPlain := by
  obtain ⟨source, target, condition⟩ := c
  simp [settled, AllFree, Condition.settled_eq_self_iff]

theorem write_settled (s : Spelling) (c : Connection) : c.settled.write s = c.write s := by
  simp only [write, settled, Condition.write_settled]

theorem value?_read_write (s : Spelling) (c : Connection) :
    (read (c.write s)).value? = some c.settled := by
  have hplace : ∀ n : Nat, (Reading.natural (.int n)).value? = some n := by
    intro n
    have hn : ¬(n : Int) < 0 := by omega
    simp [Reading.natural, Reading.integer, Reading.exactly, Reading.value?, hn]
  refine Record.value?_read_record (of_decide_eq_true rfl) fun hkeys ↦ ?_
  exact (hkeys.required rfl (hplace _)).map _
    |>.seq (hkeys.required rfl (hplace _))
    |>.seq (hkeys.optional rfl (c.condition.value?_read_write s))

end Connection

namespace Schedule

/-- The schedule with its free values as they are written. -/
def settled (schedule : Schedule) : Schedule :=
  ⟨schedule.steps.map Step.settled, schedule.connections.map Connection.settled⟩

/-- Whether the free values and free mappings of a schedule are of some kind. -/
def AllFree (values : Json → Prop) (mappings : Fields → Prop) (schedule : Schedule) : Prop :=
  (∀ step ∈ schedule.steps, step.AllFree values mappings) ∧
    ∀ c ∈ schedule.connections, c.AllFree values

theorem settled_eq_self_iff {schedule : Schedule} :
    schedule.settled = schedule ↔ schedule.AllFree Json.IsPlain Fields.IsPlain := by
  obtain ⟨steps, connections⟩ := schedule
  simp [settled, AllFree, listMap_eq_self_iff, Step.settled_eq_self_iff,
    Connection.settled_eq_self_iff]

theorem write_settled (s : Spelling) (schedule : Schedule) :
    schedule.settled.write s = schedule.write s := by
  simp only [write, settled, Json.ofList_map, Step.write_settled, Connection.write_settled]

theorem value?_read_write (s : Spelling) (schedule : Schedule) :
    (read (schedule.write s)).value? = some schedule.settled := by
  refine Record.value?_read_record (of_decide_eq_true rfl) fun hkeys ↦ ?_
  exact (hkeys.optional rfl (Reading.value?_list fun step _ ↦ step.value?_read_write s)).map _
    |>.seq (hkeys.optional rfl (Reading.value?_list fun c _ ↦ c.value?_read_write s))

end Schedule

/-! ## Templates -/

namespace Template

/-- The template with its free values as they are written. -/
def settled (t : Template) : Template :=
  { t with nodes := t.nodes.map Node.settled, edges := t.edges.map Edge.settled }

/-- Whether the free values and free mappings of a template are of some kind. -/
def AllFree (values : Json → Prop) (mappings : Fields → Prop) (t : Template) : Prop :=
  (∀ n ∈ t.nodes, n.AllFree values mappings) ∧ ∀ e ∈ t.edges, e.AllFree values

theorem settled_eq_self_iff {t : Template} :
    t.settled = t ↔ t.AllFree Json.IsPlain Fields.IsPlain := by
  obtain ⟨_, _, _, _, nodes, edges, _, _, _, _, _⟩ := t
  simp [settled, AllFree, listMap_eq_self_iff, Node.settled_eq_self_iff, Edge.settled_eq_self_iff]

theorem write_settled (s : Spelling) (t : Template) : t.settled.write s = t.write s := by
  simp only [write, settled, Json.ofList_map, Node.write_settled, Edge.write_settled]

theorem value?_read_write (s : Spelling) (t : Template) :
    (read (t.write s)).value? = some t.settled := by
  refine Record.value?_read_record (of_decide_eq_true rfl) fun hkeys ↦ ?_
  exact (hkeys.required rfl rfl).map _
    |>.seq (hkeys.required rfl rfl)
    |>.seq (hkeys.optional rfl rfl)
    |>.seq (hkeys.optional rfl rfl)
    |>.seq (hkeys.optional rfl (Reading.value?_list fun n _ ↦ n.value?_read_write s))
    |>.seq (hkeys.optional rfl (Reading.value?_list fun e _ ↦ e.value?_read_write s))
    |>.seq (hkeys.optional rfl (Reading.value?_choice (ExecutionMode.ofName?_name _)))
    |>.seq (hkeys.optional rfl (value?_nullable_text _))
    |>.seq (hkeys.optional rfl rfl)
    |>.seq (hkeys.optional rfl rfl)
    |>.seq (hkeys.optional rfl (Reading.value?_list_self (fun _ ↦ rfl) _))

end Template

/-! ## All models -/

/-- What holds of models that are written and read again. In whichever spelling a model was written,
it is accepted and comes back settled, which shows in no spelling when it is written again; and it
comes back as it was exactly where it is plain. -/
structure Reloads {α : Type} (read : Json → Reading α) (write : Spelling → α → Json)
    (settled : α → α) (plain : α → Prop) : Prop where
  accepted : ∀ s a, (read (write s a)).result = .ok (settled a)
  rewritten : ∀ s a, write s (settled a) = write s a
  exact : ∀ a, settled a = a ↔ plain a

/-- **Every model comes back from its written form.** Only free values may change: null stands for
an infinity or NaN in them, and the keys of a free mapping are readable. -/
theorem reloads_models :
    Reloads Node.read Node.write Node.settled (Node.AllFree Json.IsPlain Fields.IsPlain) ∧
    Reloads Edge.read Edge.write Edge.settled (Edge.AllFree Json.IsPlain) ∧
    Reloads Step.read Step.write Step.settled (Step.AllFree Json.IsPlain Fields.IsPlain) ∧
    Reloads Connection.read Connection.write Connection.settled
      (Connection.AllFree Json.IsPlain) ∧
    Reloads Template.read Template.write Template.settled
      (Template.AllFree Json.IsPlain Fields.IsPlain) ∧
    Reloads Schedule.read Schedule.write Schedule.settled
      (Schedule.AllFree Json.IsPlain Fields.IsPlain) := by
  have reloads : ∀ {α : Type} {read : Json → Reading α} {write : Spelling → α → Json}
      {settled : α → α} {plain : α → Prop},
      (∀ s a, (read (write s a)).value? = some (settled a)) →
      (∀ s a, write s (settled a) = write s a) → (∀ a, settled a = a ↔ plain a) →
      Reloads read write settled plain := fun hread hwrite hplain ↦
    ⟨fun s a ↦ Reading.result_of_value? (hread s a), hwrite, hplain⟩
  refine ⟨?_, ?_, ?_, ?_, ?_, ?_⟩
  · exact reloads Node.value?_read_write Node.write_settled fun _ ↦ Node.settled_eq_self_iff
  · exact reloads Edge.value?_read_write Edge.write_settled fun _ ↦ Edge.settled_eq_self_iff
  · exact reloads Step.value?_read_write Step.write_settled fun _ ↦ Step.settled_eq_self_iff
  · exact reloads Connection.value?_read_write Connection.write_settled fun _ ↦
      Connection.settled_eq_self_iff
  · exact reloads Template.value?_read_write Template.write_settled fun _ ↦
      Template.settled_eq_self_iff
  · exact reloads Schedule.value?_read_write Schedule.write_settled fun _ ↦
      Schedule.settled_eq_self_iff

/-- A node whose configuration of the agent is infinity is accepted, but does not come back. -/
theorem exists_node_unlike_reloaded :
    ∃ v n, (Node.read v).result = .ok n ∧ ∀ s, (Node.read (n.write s)).result ≠ .ok n := by
  let infinite : Json := .float (.infinity false)
  refine ⟨.object [("id", .string "a"), ("data", .object [("agentConfig", infinite)])],
    ⟨"a", .agent, .origin, { NodeData.empty with agentConfig := infinite }⟩, rfl, fun s h ↦ ?_⟩
  rw [Reading.result_of_value? (Node.value?_read_write s _)] at h
  have hnull : Json.null = infinite := (Node.settled_eq_self_iff.mp (Except.ok.inj h)).1
  exact Json.noConfusion hnull

end AgentFlow
