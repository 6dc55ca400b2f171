import AgentFlow.Json.Parser
import AgentFlow.Payload.Moment
import AgentFlow.Run.Readiness
import AgentFlow.Schedule.Canvas
import AgentFlow.Validation.Check

/-!
# Snapshots

What is kept of a workflow when it is saved: its schedule with the fingerprint, the validation
report, name, description and execution mode. A snapshot is taken of a canvas that is ready and
without errors, is stored as JSON text, and can be drawn as a canvas again. When it was taken is
checked where it is given, and not kept.

Stored text has no infinite numbers: where one stands, null is written. It is encoded, so a snapshot
with a text that cannot be is not stored. A step target is stored like a free value and has no more
levels than one. The text is read back only up to a bounded height.
-/

namespace AgentFlow

/-- What is kept of a saved workflow. -/
structure Snapshot where
  /-- The name. -/
  name : Text
  /-- The description. -/
  description : Text
  /-- How the steps are run. -/
  mode : ExecutionMode
  /-- The steps in order. -/
  steps : List Step
  /-- The connections in order. -/
  connections : List Connection
  /-- The report of the validation. -/
  validation : Report
  /-- The fingerprint of the schedule. -/
  hash : Text
  deriving DecidableEq

namespace Snapshot

/-- The schedule of a snapshot. -/
def schedule (s : Snapshot) : Schedule := ⟨s.steps, s.connections⟩

/-- Writes the schedule of a snapshot for the runtime. -/
def runtime (s : Snapshot) : Json := s.schedule.runtime

/-! ## Payloads -/

/-- The fields of a snapshot. -/
def record : Record Snapshot :=
  (fun name description mode steps connections validation hash _ ↦
      Snapshot.mk name description mode steps connections validation hash)
    <$> .required .name Reading.text
    <*> .optional .description "" Reading.text
    <*> .optional .storedMode .sequential (Reading.choice ExecutionMode.ofName? .notChoice)
    <*> .optional .steps [] (Reading.list Step.read)
    <*> .optional .connections [] (Reading.list Connection.read)
    <*> .optional .validation .empty Report.read
    <*> .required .hash Reading.text
    <*> .optional .compiledAt () Reading.moment

/-- Reads a snapshot. -/
def read : Json → Reading Snapshot := record.read

/-- The fields of a snapshot with their values; the spelling is that of the steps and
connections. -/
def fields (s : Spelling) (snapshot : Snapshot) : List (Key × Json) :=
  [(.name, .string snapshot.name), (.description, .string snapshot.description),
   (.storedMode, .string snapshot.mode.name),
   (.steps, .ofList (Step.write s) snapshot.steps),
   (.connections, .ofList (Connection.write s) snapshot.connections),
   (.validation, snapshot.validation.write), (.hash, .string snapshot.hash)]

/-- Writes a snapshot. -/
def write (s : Spelling) (snapshot : Snapshot) : Json := .record .plain (snapshot.fields s)

/-! ## Storage -/

/-- The text that is stored. -/
def storedText (s : Snapshot) : Text := (s.write .plain).finite.oneLine

/-- What keeps a field of a step from being stored. -/
def stepFieldFault? (key : Key) (v : Json) : Option Json.Unwritable :=
  if key = .stepTarget then v.unwritable? .texts freeHeight else v.unencodable?

/-- What keeps a step from being stored. -/
def stepFault? (step : Step) : Option Json.Unwritable :=
  (step.fields .plain).findSome? fun f ↦ stepFieldFault? f.1 f.2

/-- What keeps a snapshot from being stored: the first text that cannot be encoded, or the first
level too many in a step target. -/
def storeFault? (s : Snapshot) : Option Json.Unwritable :=
  (s.fields .plain).findSome? fun f ↦
    if f.1 = .steps then s.steps.findSome? stepFault? else f.2.unencodable?

/-- The greatest height of a stored snapshot that is read back. -/
def maxHeight : Nat := 201

/-- The snapshot of a stored text. -/
def restore (text : Text) : Except (List Fault) Snapshot :=
  match Json.parse? text with
  | some v =>
    if v.height ≤ maxHeight then (Snapshot.read v).result else .error [⟨[], .notJson⟩]
  | none => .error [⟨[], .notJson⟩]

/-! ## Drawing -/

/-- The schedule that is drawn of a snapshot, with its own connections or others in their place. -/
def drawn (s : Snapshot) (others : Option (List Connection)) : Schedule :=
  ⟨s.steps, others.getD s.connections⟩

end Snapshot

/-! ## Taking a snapshot -/

/-- Why no snapshot is taken. -/
inductive SnapshotFault where
  /-- The canvas is not ready. -/
  | unready (cause : Unready)
  /-- The execution mode is not known. -/
  | unknownMode (fault : UnknownMode)
  /-- The schedule cannot be written, so it has no fingerprint. -/
  | unwritable (fault : WriteFault)
  deriving DecidableEq

/-- What the person who saves a workflow gives. -/
structure SaveForm where
  /-- The name. -/
  name : Option Text
  /-- The description. -/
  description : Option Text
  /-- The execution mode, which should be the name of one. -/
  mode : Json

/-- The execution mode of a form, if it may be used on a canvas. -/
def SaveForm.checkedMode (form : SaveForm) (g : Graph) : Except SnapshotFault ExecutionMode :=
  if !isGiven form.name then .error (.unready .unnamed)
  else
    match g.checkReady with
    | .error cause => .error (.unready cause)
    | .ok _ => (ExecutionMode.ofValue form.mode).mapError .unknownMode

/-- The name that a form gives a workflow. -/
def SaveForm.givenName (form : SaveForm) : Text := strip (form.name.getD "")

namespace Graph

/-- The snapshot of a canvas. -/
def snapshot (settings : Settings) (picker : Picker) (form : SaveForm) (g : Graph) :
    Except SnapshotFault Snapshot := do
  let mode ← form.checkedMode g
  let report := g.report settings mode.name
  if report.isValid then
    let schedule ← (g.runnable picker).mapError SnapshotFault.unready
    let hash ← schedule.checkedFingerprint.mapError SnapshotFault.unwritable
    .ok
      { name := form.givenName
        description := form.description.getD ""
        mode := mode
        steps := schedule.steps
        connections := schedule.connections
        validation := report
        hash := hash }
  else .error (.unready (.invalid report.errors.length))

/-- What is reported when a snapshot is taken. -/
def snapshotNotices (settings : Settings) (picker : Picker) (form : SaveForm) (g : Graph) :
    List Notice :=
  match form.checkedMode g with
  | .error _ => []
  | .ok mode =>
    g.cycleNotices ++
      if (g.report settings mode.name).isValid then
        g.runnableNotices picker ++
          match g.snapshot settings picker form with
          | .ok s => [.snapshotTaken s.name s.steps.length s.connections.length s.hash]
          | .error _ => []
      else []

end Graph

end AgentFlow
