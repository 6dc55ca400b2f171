import AgentFlow.Canvas.Graph
import AgentFlow.Json.Parser
import AgentFlow.Json.Printer
import AgentFlow.Notice

/-!
# Exported workflows

A canvas is exchanged as an indented JSON text: a version, the name and description, the nodes and
edges, and the time of the export. Reading one is all or nothing. Every part may be missing, but a
part that is there has to have its form; nodes and edges may also be null, which stands for none.
Writing one fails when a free value in a node or edge cannot be written.

A text that does not have the format is reported before it is refused, and the report holds what is
at fault. Who handles reports is not known here. Handlers are to keep to themselves what goes wrong
in them; what one lets out all the same is raised in place of the refusal
(`Imported.readReported`).
-/

namespace AgentFlow

/-! ## Types -/

/-- What an exported workflow says about itself. -/
structure Metadata where
  /-- The name. -/
  name : Text
  /-- The description. -/
  description : Text
  deriving DecidableEq

/-- What is read from an exported workflow. -/
structure Imported where
  /-- The canvas. -/
  graph : Graph
  /-- What the workflow says about itself, unread. -/
  metadata : Option Fields
  deriving DecidableEq

/-- Why a text is refused. -/
inductive ImportFault where
  /-- It does not have the format of an exported workflow. -/
  | invalidFormat
  /-- It nests too deep to tell. -/
  | tooDeep (container : Json.Container)
  deriving DecidableEq

/-- What is reported of a text that does not have the format. -/
inductive ImportReport where
  /-- It is no text. -/
  | notText (given : Json)
  /-- It is not JSON. -/
  | notJson (text : Text)
  /-- It is JSON for a value that is no sound envelope. -/
  | notEnvelope (v : Json)
  /-- It is a sound envelope that lists something unreadable. -/
  | unreadable (v : Json)
  deriving DecidableEq

/-- What stops the reading of an exported workflow. -/
inductive ImportStop where
  /-- It does not have the format, which is reported. -/
  | rejected (report : ImportReport)
  /-- It nests too deep to tell. -/
  | tooDeep (container : Json.Container)
  deriving DecidableEq

/-- Why a text is refused where reading it stops. -/
def ImportStop.fault : ImportStop → ImportFault
  | .rejected _ => .invalidFormat
  | .tooDeep container => .tooDeep container

/-- The wording of a fault. -/
def ImportFault.message : ImportFault → String
  | .invalidFormat => "Invalid workflow JSON format"
  | .tooDeep container => container.tooDeep

namespace Metadata

/-- The fields of metadata. -/
def record : Record Metadata :=
  Metadata.mk <$> .optional .name "" Reading.text <*> .optional .description "" Reading.text

/-- Reads metadata. -/
def read : Json → Reading Metadata := record.read

/-- Writes metadata. -/
def write (m : Metadata) : Json :=
  .record .plain [(.name, .string m.name), (.description, .string m.description)]

end Metadata

/-! ## Writing -/

/-- The version of the format. -/
def exportVersion : String := "1.0"

namespace Graph

/-- An exported workflow as a value. -/
def exported (g : Graph) (m : Metadata) (time : Text) : Json :=
  .record .wire
    [(.version, .string exportVersion), (.metadata, m.write),
     (.nodes, .ofList (Node.write .wire) g.nodes), (.edges, .ofList (Edge.write .wire) g.edges),
     (.exportedAt, .string time)]

/-- The text of an exported workflow. -/
def exportText (g : Graph) (m : Metadata) (time : Text) : Except WriteFault Text :=
  fileText g.writeFault? (g.exported m time)

end Graph

/-! ## Reading -/

namespace Envelope

/-- Whether a value is a text. -/
def isText : Json → Bool
  | .string _ => true
  | _ => false

/-- Whether a value is an object. -/
def isObject (v : Json) : Bool := v.fields?.isSome

/-- Whether a value is an object or null. -/
def isObjectOrNull : Json → Bool
  | .null => true
  | v => isObject v

/-- Whether a value is a list of objects or null. -/
def isObjectsOrNull : Json → Bool
  | .null => true
  | .array items => items.all isObject
  | _ => false

/-- Whether a part that is there has its form. -/
def fits (fields : Fields) (k : Key) (form : Json → Bool) : Bool := (fields.get? k.wire).all form

/-- Whether all parts that are there have their form. -/
def isSound (fields : Fields) : Bool :=
  fits fields .version isText && fits fields .metadata isObjectOrNull
    && fits fields .nodes isObjectsOrNull && fits fields .edges isObjectsOrNull
    && fits fields .exportedAt isText

/-- The items of a list that may be missing or null. -/
def items (fields : Fields) (k : Key) : List Json :=
  match fields.get? k.wire with
  | some (.array vs) => vs
  | _ => []

end Envelope

namespace Imported

/-- Reads an exported workflow from a value. -/
def ofValue? (v : Json) : Option Imported := do
  let fields ← v.fields?
  if Envelope.isSound fields then
    let nodes ← (Reading.list Node.read (.array (Envelope.items fields .nodes))).value?
    let edges ← (Reading.list Edge.read (.array (Envelope.items fields .edges))).value?
    some ⟨⟨nodes, edges⟩, (fields.get? Key.metadata.wire).bind Json.fields?⟩
  else none

/-- What is reported of a value from which nothing is imported. -/
def report (v : Json) : ImportReport :=
  if v.fields?.any Envelope.isSound then .unreadable v else .notEnvelope v

/-- Reads an exported workflow up to where it stops. What is given should be a text. -/
def attempt (given : Json) : Except ImportStop Imported :=
  match given with
  | .string text =>
    match Json.parse .outside text with
    | .ok v =>
      match ofValue? v with
      | some imported => .ok imported
      | none => .error (.rejected (report v))
    | .error .malformed => .error (.rejected (.notJson text))
    | .error (.tooDeep container) => .error (.tooDeep container)
  | v => .error (.rejected (.notText v))

/-- Reads an exported workflow where reports are handled like this: a handler may let something out,
which is raised then. -/
def readReported (handle : ImportReport → Option ε) (given : Json) :
    Except (ε ⊕ ImportFault) Imported :=
  match attempt given with
  | .ok imported => .ok imported
  | .error (.rejected report) =>
    match handle report with
    | some raised => .error (.inl raised)
    | none => .error (.inr .invalidFormat)
  | .error (.tooDeep container) => .error (.inr (.tooDeep container))

/-- Reads an exported workflow where handlers let nothing out. -/
def read (given : Json) : Except ImportFault Imported :=
  (attempt given).mapError ImportStop.fault

/-- What is reported when an exported workflow is read. -/
def readNotices (given : Json) : List Notice :=
  match attempt given with
  | .error (.rejected _) => [.importRejected]
  | _ => []

end Imported

end AgentFlow
