import AgentFlow.Json.Basic

/-!
# Field names

Every field of a record has a spelling on the canvas, in camel case, and one in stored records, in
snake case. A field of one word is spelled alike in both. This module names the fields of all
records, so that readers and writers share them.
-/

namespace AgentFlow

/-- The two spellings of a field. -/
structure Key where
  /-- The spelling on the canvas. -/
  wire : String
  /-- The spelling in stored records. -/
  plain : String
  deriving DecidableEq

/-- Which spelling is written. -/
inductive Spelling where
  /-- That of the canvas. -/
  | wire
  /-- That of stored records. -/
  | plain
  deriving DecidableEq

namespace Key

/-- A field that is spelled alike everywhere. -/
def same (name : String) : Key := ⟨name, name⟩

/-- The name of a field in a spelling. -/
def spell (k : Key) : Spelling → String
  | .wire => k.wire
  | .plain => k.plain

/-! ## Conditions, targets and loops -/

def field : Key := same "field"
def value : Key := same "value"
def onSuccess : Key := ⟨"onSuccess", "on_success"⟩
def onFailure : Key := ⟨"onFailure", "on_failure"⟩
def always : Key := same "always"
def ifContains : Key := ⟨"ifContains", "if_contains"⟩
def ifEquals : Key := ⟨"ifEquals", "if_equals"⟩
def agent : Key := same "agent"
def agentConfig : Key := ⟨"agentConfig", "agent_config"⟩
def agency : Key := same "agency"
def agencyId : Key := ⟨"agencyId", "agency_id"⟩
def inputMapping : Key := ⟨"inputMapping", "input_mapping"⟩
def forEach : Key := ⟨"forEach", "for_each"⟩
def arraySource : Key := ⟨"arraySource", "array_source"⟩
def itemVariable : Key := ⟨"itemVariable", "item_variable"⟩
def indexVariable : Key := ⟨"indexVariable", "index_variable"⟩
def maxIterations : Key := ⟨"maxIterations", "max_iterations"⟩
def whileLoop : Key := ⟨"whileLoop", "while_loop"⟩
def repeated : Key := same "repeat"
def count : Key := same "count"
def none : Key := same "none"

/-! ## Steps, nodes and edges -/

def agentCanisterId : Key := ⟨"agentCanisterId", "agent_canister_id"⟩
def agentName : Key := ⟨"agentName", "agent_name"⟩
def inputTemplate : Key := ⟨"inputTemplate", "input_template"⟩
def requiresApproval : Key := ⟨"requiresApproval", "requires_approval"⟩
def retryOnFailure : Key := ⟨"retryOnFailure", "retry_on_failure"⟩
def timeout : Key := same "timeout"
def triggerConfig : Key := ⟨"triggerConfig", "trigger_config"⟩
def stepTarget : Key := ⟨"stepTarget", "step_target"⟩
def loopConfig : Key := ⟨"loopConfig", "loop_config"⟩
def description : Key := same "description"
def icon : Key := same "icon"
def status : Key := same "status"
def validationErrors : Key := ⟨"validationErrors", "validation_errors"⟩
def x : Key := same "x"
def y : Key := same "y"
def id : Key := same "id"
def type : Key := same "type"
def position : Key := same "position"
def data : Key := same "data"
def condition : Key := same "condition"
def label : Key := same "label"
def source : Key := same "source"
def target : Key := same "target"
def animated : Key := same "animated"
def nodes : Key := same "nodes"
def edges : Key := same "edges"
def sourceStepIndex : Key := ⟨"sourceStepIndex", "source_step_index"⟩
def targetStepIndex : Key := ⟨"targetStepIndex", "target_step_index"⟩
def steps : Key := same "steps"
def connections : Key := same "connections"

/-! ## Templates, snapshots and exported files -/

def name : Key := same "name"
def category : Key := same "category"
def executionMode : Key := ⟨"executionMode", "execution_mode"⟩
def thumbnail : Key := same "thumbnail"
def difficulty : Key := same "difficulty"
def estimatedTime : Key := ⟨"estimatedTime", "estimated_time"⟩
def tags : Key := same "tags"
def storedMode : Key := same "execution_mode"
def validation : Key := same "validation"
def hash : Key := same "hash"
def compiledAt : Key := same "compiled_at"
def input : Key := same "input"
def version : Key := same "version"
def metadata : Key := same "metadata"
def exportedAt : Key := same "exportedAt"

/-! ## Reports and settings -/

def nodeId : Key := same "node_id"
def edgeId : Key := same "edge_id"
def message : Key := same "message"
def suggestion : Key := same "suggestion"
def isValid : Key := same "is_valid"
def errors : Key := same "errors"
def warnings : Key := same "warnings"
def largeWorkflowThreshold : Key := same "large_workflow_threshold"
def avgSecondsPerAgent : Key := same "avg_seconds_per_agent"
def parallelFactor : Key := same "parallel_factor"
def templatesDir : Key := same "templates_dir"
def strictPrincipals : Key := same "strict_principals"

end Key

/-! ## Looking fields up and writing them -/

/-- The field of an object under the spelling in which it is found: that of the canvas first, even
if its value does not fit. -/
def Fields.find? (fields : Fields) (k : Key) : Option (String × Json) :=
  match fields.get? k.wire with
  | some v => some (k.wire, v)
  | Option.none => (fields.get? k.plain).map fun v ↦ (k.plain, v)

/-- An object of named fields in one spelling. -/
def Json.record (s : Spelling) (fields : List (Key × Json)) : Json :=
  .object (fields.map fun f ↦ (f.1.spell s, f.2))

/-- A value that may be missing; null stands for it then. -/
def Json.ofOption (f : α → Json) : Option α → Json
  | some a => f a
  | Option.none => .null

/-- A list of values. -/
def Json.ofList (f : α → Json) (xs : List α) : Json := .array (xs.map f)

end AgentFlow
