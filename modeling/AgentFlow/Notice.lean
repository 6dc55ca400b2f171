import AgentFlow.Eligibility
import AgentFlow.Canvas.Edge
import AgentFlow.Text.Quoted

/-!
# Notices

What the library reports beside its results: nodes that are passed over, edges that are dropped,
settings that are ignored, and what was done. A notice is data; its level and its wording are
functions of it. An operation that reports gives its value together with its notices in order
(`Noted`).
-/

namespace AgentFlow

/-! ## Notices -/

/-- How much a notice matters. -/
inductive NoticeLevel where
  /-- Of use when a fault is searched for. -/
  | debug
  /-- Of use to know. -/
  | info
  /-- Something was passed over. -/
  | warning
  /-- Something is wrong. -/
  | error
  deriving DecidableEq

/-- The name of a level. -/
def NoticeLevel.name : NoticeLevel → String
  | .debug => "DEBUG"
  | .info => "INFO"
  | .warning => "WARNING"
  | .error => "ERROR"

/-- Something that is reported. -/
inductive Notice where
  /-- The topological order leaves nodes out. -/
  | orderIncomplete (omitted total : Nat)
  /-- Nodes are left out of the compiled schedule because the order leaves them out. -/
  | nodesLeftOut (omitted : Nat)
  /-- A node does not become a step. -/
  | nodeRejected (node : Node) (reason : Rejection)
  /-- An edge does not become a connection. -/
  | edgeDropped (edge : Edge)
  /-- A canvas was compiled. -/
  | compiled (nodes edges steps connections : Nat)
  /-- A connection names a step that does not exist. -/
  | connectionSkipped (source target : Nat) (steps : Nat)
  /-- A canvas holds a cycle. -/
  | cycleFound (path : List Text)
  /-- A text was refused as an exported workflow. -/
  | importRejected
  /-- The file of a project's templates cannot be read. -/
  | templatesUnreadable
  /-- A template was saved. -/
  | templateSaved (name id project : Text)
  /-- A snapshot was taken. -/
  | snapshotTaken (name : Text) (steps connections : Nat) (hash : Text)
  /-- A setting that should be a whole number is not one. -/
  | settingNotInteger (text : Text) (setting : String)
  /-- A setting that should be a number is not one. -/
  | settingNotNumeric (text : Text) (setting : String)
  /-- A setting is out of its range. -/
  | settingOutOfRange (text : Text) (setting minimum : String)
  deriving DecidableEq

namespace Notice

/-- How much a notice matters. -/
def level : Notice → NoticeLevel
  | .orderIncomplete .. | .edgeDropped _ | .compiled .. => .debug
  | .nodeRejected _ .notAnAgent => .debug
  | .nodeRejected _ .hostingCanister => .error
  | .cycleFound _ | .templateSaved .. | .snapshotTaken .. => .info
  | _ => .warning

/-- The name by which a notice calls a node: the one on the canvas, or the id. -/
def nodeName (n : Node) : Text := if n.displayName = "" then n.id else n.displayName

/-- The wording of a rejection. -/
def rejectionText (n : Node) : Rejection → Text
  | .notAnAgent => "Node " ++ quoted n.id ++ " is a " ++ n.kind.name ++ " node - not compiled"
  | .missingCanister => "Agent node " ++ quoted (nodeName n) ++ " has no canister ID - skipping"
  | .hostingCanister =>
    "Agent node " ++ quoted (nodeName n) ++ " points at the workflow's own hosting canister "
      ++ quoted (n.canisterId.getD "") ++ " - skipping"
  | .notAvailable =>
    "Agent node " ++ quoted (nodeName n) ++ " has canister ID " ++ quoted (n.canisterId.getD "")
      ++ " which is not in the list of available agents - skipping"

/-- The wording of a notice. Where the cause is a fault of some foreign text, `%s` holds its place.
-/
def text : Notice → Text
  | .orderIncomplete omitted total =>
    "Topological sort omitted " ++ toString omitted ++ " of " ++ toString total
      ++ " nodes (cycle or dangling edge)"
  | .nodesLeftOut omitted =>
    toString omitted
      ++ " node(s) left out of the execution order; the graph likely contains a cycle"
  | .nodeRejected node reason => rejectionText node reason
  | .edgeDropped e =>
    "Dropping edge " ++ e.id ++ " (" ++ e.source ++ " -> " ++ e.target
      ++ "): endpoint not compiled"
  | .compiled nodes edges steps connections =>
    "Compiled " ++ toString nodes ++ " nodes / " ++ toString edges ++ " edges into "
      ++ toString steps ++ " steps / " ++ toString connections ++ " connections"
  | .connectionSkipped source target steps =>
    "Skipping connection " ++ toString source ++ " -> " ++ toString target
      ++ ": step index out of range (" ++ toString steps ++ " steps)"
  | .cycleFound path => "Workflow contains a cycle: " ++ List.intercalate " -> " path
  | .importRejected => "Rejected workflow import: %s"
  | .templatesUnreadable => "Failed to load saved templates from %s: %s"
  | .templateSaved name id project =>
    "Saved template " ++ quoted name ++ " (" ++ id ++ ") for project " ++ project
  | .snapshotTaken name steps connections hash =>
    "Compiled workflow " ++ quoted name ++ ": " ++ toString steps ++ " steps, "
      ++ toString connections ++ " connections, hash " ++ hash.take 12
  | .settingNotInteger text setting =>
    "Ignoring non-integer value " ++ quoted text ++ " for " ++ setting
  | .settingNotNumeric text setting =>
    "Ignoring non-numeric value " ++ quoted text ++ " for " ++ setting
  | .settingOutOfRange text setting minimum =>
    "Ignoring out-of-range value " ++ quoted text ++ " for " ++ setting ++ " (minimum "
      ++ minimum ++ ")"

end Notice

/-- What is reported when the eligible nodes are chosen. -/
def rejectionNotices (r : Restriction) (nodes : List Node) : List Notice :=
  nodes.filterMap fun n ↦ (n.rejection? r).map (.nodeRejected n)

/-! ## Values with notices -/

/-- A value together with what was reported on the way to it. -/
structure Noted (α : Type) where
  /-- The value. -/
  value : α
  /-- The notices in order. -/
  notices : List Notice

namespace Noted

instance : Monad Noted where
  pure a := ⟨a, []⟩
  bind x f :=
    let y := f x.value
    ⟨y.value, x.notices ++ y.notices⟩

/-- Reports notices. -/
def report (notices : List Notice) : Noted Unit := ⟨(), notices⟩

@[simp] theorem value_pure {α : Type} (a : α) : (pure a : Noted α).value = a := rfl

@[simp] theorem notices_pure {α : Type} (a : α) : (pure a : Noted α).notices = [] := rfl

@[simp] theorem value_bind {α β : Type} (x : Noted α) (f : α → Noted β) :
    (x >>= f).value = (f x.value).value := rfl

@[simp] theorem notices_bind {α β : Type} (x : Noted α) (f : α → Noted β) :
    (x >>= f).notices = x.notices ++ (f x.value).notices := rfl

end Noted

end AgentFlow
