import AgentFlow.Exchange
import AgentFlow.Proofs.Payload.Levels
import AgentFlow.Proofs.Schedule.Writing

/-!
# Reading exported workflows

An exported workflow is written only if its free values can be, and then it has far fewer levels
than are read (`Graph.within_exported`). So its text is read back as the value that was written, the
envelope is sound, and nodes and edges come back settled (`Graph.read_exportText`).
-/

namespace AgentFlow

/-! ## Levels of exported workflows -/

namespace Graph

theorem allFree_within {g : Graph} (h : g.AllFree Json.Distinct Json.DistinctFields)
    (hfault : g.writeFault? = none) :
    g.AllFree (Json.Within freeHeight) (Fields.AllWithin freeHeight) := by
  rw [writeFault?, Option.or_eq_none_iff, List.findSome?_eq_none_iff,
    List.findSome?_eq_none_iff] at hfault
  obtain ⟨hnodes, hedges⟩ := hfault
  constructor
  · intro n hn
    obtain ⟨hconfig, htrigger, htarget⟩ := h.1 n hn
    have hnode := hnodes n hn
    rw [Node.writeFault?, NodeData.writeFault?, Option.or_eq_none_iff, Option.or_eq_none_iff,
      Option.bind_eq_none_iff, Option.bind_eq_none_iff] at hnode
    obtain ⟨⟨hconfig', htrigger'⟩, htarget'⟩ := hnode
    exact ⟨⟨hconfig, Json.height_le_of_writeFault?_eq_none hconfig'⟩,
      fun m hm ↦ Fields.allWithin_of_writeFault?_eq_none (htrigger m hm) (htrigger' m hm),
      fun t ht ↦ StepTarget.within_of_choiceFault?_eq_none (htarget t ht) (htarget' t ht)⟩
  · intro e he d hd c hc v hv
    have hedge := hedges e he
    rw [Edge.writeFault?, Option.bind_eq_none_iff] at hedge
    have hdata := hedge d hd
    rw [EdgeData.writeFault?, Option.bind_eq_none_iff] at hdata
    have hcondition := hdata c hc
    rw [Condition.writeFault?, Option.or_eq_none_iff, Option.map_eq_none_iff,
      List.findSome?_eq_none_iff] at hcondition
    exact ⟨h.2 e he d hd c hc v hv, Json.height_le_of_freeFault?_eq_none (hcondition.1 v hv)⟩

/-- The fields of an exported workflow. -/
def exportFields (g : Graph) (m : Metadata) (time : Text) : List (Key × Json) :=
  [(.version, .string exportVersion), (.metadata, m.write),
   (.nodes, .ofList (Node.write .wire) g.nodes), (.edges, .ofList (Edge.write .wire) g.edges),
   (.exportedAt, .string time)]

theorem exported_eq (g : Graph) (m : Metadata) (time : Text) :
    g.exported m time = .object (Fields.spelled .wire (g.exportFields m time)) := rfl

theorem allApart_exportFields (g : Graph) (m : Metadata) (time : Text) :
    AllApart (g.exportFields m time) := of_decide_eq_true rfl

theorem within_exported {g : Graph} (h : g.AllFree Json.Distinct Json.DistinctFields)
    (hfault : g.writeFault? = none) (m : Metadata) (time : Text) :
    (g.exported m time).Within (freeHeight + 6) := by
  obtain ⟨hnodes, hedges⟩ := allFree_within h hfault
  have hmetadata : m.write.Within 2 := by
    apply Json.within_record (of_decide_eq_true rfl)
    simp only [List.forall_mem_cons]
    exact ⟨within_text _, within_text _, nofun⟩
  apply Json.within_record (g.allApart_exportFields m time)
  simp only [exportFields, List.forall_mem_cons]
  refine ⟨?_, ?_, ?_, ?_, ?_, nofun⟩
  · exact (within_text _).mono (by omega)
  · exact hmetadata.mono (by omega)
  · exact Json.within_ofList fun n hn ↦ Node.within_write .wire (hnodes n hn)
  · exact (Json.within_ofList fun e he ↦
      Edge.within_write .wire (by decide) (hedges e he)).mono (by omega)
  · exact (within_text _).mono (by omega)

end Graph

/-! ## The envelope -/

/-- The fields of metadata as they are exported. -/
def Metadata.exportedFields (m : Metadata) : Fields :=
  [("name", .string m.name), ("description", .string m.description)]

/-- What an envelope has to say about a canvas and its metadata to be imported as these. -/
structure Envelope.Holds (fields : Fields) (g : Graph) (m : Metadata) : Prop where
  sound : Envelope.isSound fields
  nodes : Envelope.items fields .nodes = g.nodes.map (Node.write .wire)
  edges : Envelope.items fields .edges = g.edges.map (Edge.write .wire)
  metadata : fields.get? Key.metadata.wire = some m.write

theorem Envelope.isObjectsOrNull_ofList {α : Type} {f : α → Json} (hf : ∀ a, isObject (f a))
    (l : List α) : isObjectsOrNull (.ofList f l) := by
  rw [Json.ofList, isObjectsOrNull, List.all_map, List.all_eq_true]
  exact fun a _ ↦ hf a

theorem Graph.holds_exported (g : Graph) (m : Metadata) (time : Text) :
    Envelope.Holds (Fields.spelled .wire (g.exportFields m time)) g m := by
  have hget : ∀ k v, k.plain = k.wire → (k, v) ∈ g.exportFields m time →
      (Fields.spelled .wire (g.exportFields m time)).get? k.wire = some v := fun k v hk hv ↦
    Fields.get?_spelled_same (g.allApart_exportFields m time) hk hv
  have hversion := hget .version _ rfl List.mem_cons_self
  have hmetadata := hget .metadata m.write rfl (by simp [exportFields])
  have hnodes := hget .nodes (.ofList (Node.write .wire) g.nodes) rfl (by simp [exportFields])
  have hedges := hget .edges (.ofList (Edge.write .wire) g.edges) rfl (by simp [exportFields])
  have htime := hget .exportedAt (.string time) rfl (by simp [exportFields])
  constructor
  · simp only [Envelope.isSound, Envelope.fits, hversion, hmetadata, hnodes, hedges, htime,
      Option.all_some, Bool.and_eq_true]
    exact ⟨⟨⟨⟨rfl, rfl⟩, Envelope.isObjectsOrNull_ofList (fun _ ↦ rfl) _⟩,
      Envelope.isObjectsOrNull_ofList (fun _ ↦ rfl) _⟩, rfl⟩
  · rw [Envelope.items, hnodes]
    rfl
  · rw [Envelope.items, hedges]
    rfl
  · exact hmetadata

theorem Imported.ofValue?_holds {fields : Fields} {g : Graph} {m : Metadata}
    (h : Envelope.Holds fields g m) :
    ofValue? (.object fields) = some ⟨g.settled, some m.exportedFields⟩ := by
  have hnodes : (Reading.list Node.read (.array (Envelope.items fields .nodes))).value?
      = some (g.nodes.map Node.settled) := by
    rw [h.nodes]
    exact Reading.value?_list fun n _ ↦ n.value?_read_write .wire
  have hedges : (Reading.list Edge.read (.array (Envelope.items fields .edges))).value?
      = some (g.edges.map Edge.settled) := by
    rw [h.edges]
    exact Reading.value?_list fun e _ ↦ e.value?_read_write .wire
  have hmetadata : (fields.get? Key.metadata.wire).bind Json.fields? = some m.exportedFields := by
    rw [h.metadata]
    rfl
  simp [ofValue?, Json.fields?, h.sound, hnodes, hedges, hmetadata, Graph.settled]

namespace Graph

variable {g : Graph} {m : Metadata} {time text : Text}

theorem exportText_eq_ok_iff :
    g.exportText m time = .ok text ↔
      (g.writeFault? = none ∧ (g.exported m time).hasLongInteger = false) ∧
        (g.exported m time).pretty = text := fileText_eq_ok_iff

theorem read_of_exportText (h : g.AllFree Json.Distinct Json.DistinctFields)
    (hok : g.exportText m time = .ok text) :
    Imported.read (.string text) = .ok ⟨g.settled, some m.exportedFields⟩ := by
  obtain ⟨⟨hfault, hshort⟩, rfl⟩ := exportText_eq_ok_iff.mp hok
  obtain ⟨hdistinct, hheight⟩ := within_exported h hfault m time
  have hparse := Json.parse_pretty hdistinct (hheight.trans (by decide)) hshort
  have himported : Imported.ofValue? (g.exported m time)
      = some ⟨g.settled, some m.exportedFields⟩ := by
    rw [exported_eq]
    exact Imported.ofValue?_holds (g.holds_exported m time)
  simp only [Imported.read, Imported.attempt, hparse, himported, Except.mapError]

/-- **Import undoes export.** A canvas can be exported exactly when none of its free values keeps it
from being written and its whole numbers are short enough for a text. Its text is then read back as
the canvas with its free values as they are written, which is the canvas itself exactly where these
are plain, and as the name and description that were given. -/
theorem read_exportText (h : g.AllFree Json.Distinct Json.DistinctFields) (m : Metadata)
    (time : Text) :
    ((∃ text, g.exportText m time = .ok text) ↔
      g.writeFault? = none ∧ (g.exported m time).hasLongInteger = false) ∧
    (∀ text, g.exportText m time = .ok text →
      Imported.read (.string text) = .ok ⟨g.settled, some m.exportedFields⟩) ∧
    (g.settled = g ↔ g.AllFree Json.IsPlain Fields.IsPlain) := by
  refine ⟨?_, fun text ↦ read_of_exportText h, settled_eq_self_iff⟩
  simp only [exportText_eq_ok_iff, exists_and_left, exists_eq', and_true]

/-- A canvas of two agents. The first has a configuration, a trigger, a target and a loop; it leads
to the second where it succeeds. -/
def configured : Graph where
  nodes :=
    [⟨"a", .agent, .origin,
      { NodeData.empty with
        timeout := some (.fractional .zero)
        agentConfig := .object [("model", .string "large"), ("stop", .array [.null, .bool true])]
        triggerConfig := some [("cron", .string "* * * * *")]
        stepTarget := some (.agent ⟨"aaaaa-aa", .array []⟩)
        loopConfig := some (.forEach ⟨"items", "item", "index", none⟩) }⟩,
     ⟨"b", .agent, .origin, NodeData.empty⟩]
  edges :=
    [⟨"e", "a", "b", .conditional, true,
      some ⟨some ⟨some .null, none, none, none, some (some ⟨"status", "done"⟩)⟩, some "then"⟩⟩]

theorem exists_exportText_configured :
    configured.AllFree Json.Distinct Json.DistinctFields ∧ configured.settled = configured ∧
    ∃ text, configured.exportText ⟨"Relay", "Hands over"⟩ "now" = .ok text ∧
      Imported.read (.string text) = .ok ⟨configured,
        some [("name", .string "Relay"), ("description", .string "Hands over")]⟩ := by
  have hfree : configured.AllFree Json.Distinct Json.DistinctFields := by
    simp [configured, AllFree, Node.AllFree, NodeData.AllFree, Edge.AllFree, NodeData.empty,
      StepTarget.freeValues, Condition.markers, Json.Distinct, Json.DistinctItems,
      Json.DistinctFields]
  obtain ⟨hexport, hread, -⟩ := read_exportText hfree ⟨"Relay", "Hands over"⟩ "now"
  obtain ⟨text, htext⟩ := hexport.mpr ⟨rfl, rfl⟩
  have hsettled : configured.settled = configured := by decide
  exact ⟨hfree, hsettled, text, htext, hsettled ▸ hread text htext⟩

/-- A canvas with a node whose configuration of the agent is infinity. -/
def infinite : Graph :=
  ⟨[⟨"a", .agent, .origin, { NodeData.empty with agentConfig := .float (.infinity false) }⟩], []⟩

theorem exists_import_unlike_exported :
    ∃ (g : Graph) (m : Metadata) (time text : Text) (imported : Imported),
      g.AllFree Json.Distinct Json.DistinctFields ∧ g.exportText m time = .ok text ∧
        Imported.read (.string text) = .ok imported ∧ imported.graph ≠ g := by
  have hfree : infinite.AllFree Json.Distinct Json.DistinctFields := by
    simp [infinite, AllFree, Node.AllFree, NodeData.AllFree, NodeData.empty, Json.Distinct]
  have hok : infinite.exportText ⟨"", ""⟩ "now" = .ok (infinite.exported ⟨"", ""⟩ "now").pretty :=
    exportText_eq_ok_iff.mpr ⟨⟨rfl, rfl⟩, rfl⟩
  refine ⟨infinite, ⟨"", ""⟩, "now", _, _, hfree, hok, read_of_exportText hfree hok, ?_⟩
  decide

end Graph

end AgentFlow
