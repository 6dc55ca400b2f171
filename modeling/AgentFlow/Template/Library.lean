import AgentFlow.Identifier
import AgentFlow.Json.Parser
import AgentFlow.Json.Printer
import AgentFlow.Notice
import AgentFlow.Template.Basic
import AgentFlow.Template.Storage

/-!
# Template libraries

The library of a project is the list of templates that its file holds as JSON. Every operation reads
the file anew, and every change writes it whole. A file that cannot be read, in part or at all,
counts as a file without templates, unless it nests too deep, which stops every operation. What is
to be written is checked before the file is opened, but for characters that cannot be encoded; the
shared folder is made even before that.
-/

namespace AgentFlow

/-! ## Types -/

/-- The library of a project. -/
structure Library where
  /-- The project. -/
  project : Text
  /-- The folder of the files. -/
  folder : Path
  deriving DecidableEq

/-- Why a template operation fails. -/
inductive TemplateFault where
  /-- There is no project. -/
  | noProject
  /-- No template has the id. -/
  | notFound (id : Text)
  /-- The workflow that should be saved is empty. -/
  | emptyWorkflow
  /-- No agent of the workflow has a canister. -/
  | unconfigured
  /-- There is no name. -/
  | unnamed
  deriving DecidableEq

/-- The wording of a fault. -/
def TemplateFault.message : TemplateFault → Text
  | .noProject => "A project is required to store templates"
  | .notFound id => "Template '" ++ id ++ "' not found"
  | .emptyWorkflow => "Cannot save empty workflow as template"
  | .unconfigured =>
    "Please configure at least one agent with a canister ID before saving as template"
  | .unnamed => "Please enter a template name"

/-- Why a library cannot be read or changed. -/
inductive LibraryFault where
  /-- The operation does not apply. -/
  | refused (cause : TemplateFault)
  /-- The clock reading has no whole part. -/
  | clock (cause : Binary64.NotWhole)
  /-- The template does not fit. -/
  | invalid (faults : List Fault)
  /-- The file nests too deep. -/
  | tooDeep (container : Json.Container)
  /-- A template cannot be written. -/
  | unwritable (cause : WriteFault)
  /-- The file cannot be found or written. -/
  | storage (cause : StorageFault)
  deriving DecidableEq

/-- What a user gives to save a workflow as a template. -/
structure TemplateForm where
  /-- The name. -/
  name : Option Text
  /-- The description. -/
  description : Text
  /-- The workflow. -/
  graph : Graph
  /-- The execution mode, which should be the name of one. -/
  mode : Json
  /-- The clock reading in seconds. -/
  now : Binary64

/-! ## Files -/

namespace Template

/-- The text of a file of templates. -/
def fileText (ts : List Template) : Except WriteFault Text :=
  AgentFlow.fileText (ts.findSome? Template.writeFault?) (.ofList (Template.write .wire) ts)

/-- The templates of a file, if it is a file of templates. -/
def ofFile (content : FileContent) : Except Json.Container (Option (List Template)) :=
  match content.read with
  | .error _ => .ok none
  | .ok s =>
    match Json.parse .outside s with
    | .ok (.array items) => .ok (Reading.each Template.read items).toOption
    | .error (.tooDeep container) => .error container
    | _ => .ok none

end Template

/-! ## The form -/

namespace TemplateForm

/-- The description of a template that is given none. -/
def defaultDescription : String := "Saved workflow template"

/-- The description of the template. -/
def givenDescription (form : TemplateForm) : Text :=
  if isBlankText form.description then defaultDescription else strip form.description

/-- Checks that a workflow can be saved under a name, and gives the name. -/
def checkedName (form : TemplateForm) : Except TemplateFault Text :=
  if form.graph.nodes.isEmpty then .error .emptyWorkflow
  else if !hasConfiguredAgent form.graph.nodes then .error .unconfigured
  else
    match form.name with
    | some name => if isBlankText name then .error .unnamed else .ok (strip name)
    | none => .error .unnamed

/-- The execution mode of the template. -/
def givenMode (form : TemplateForm) : Except (List Fault) ExecutionMode :=
  ((Reading.choice ExecutionMode.ofName? .notChoice form.mode).under
    (.field Key.executionMode.plain)).result

/-- The template that a form makes. -/
def template (form : TemplateForm) : Except LibraryFault Template := do
  let name ← form.checkedName.mapError LibraryFault.refused
  let time ← (milliseconds form.now).mapError LibraryFault.clock
  if form.graph.isCopied then .ok () else .error (.unwritable .notCopied)
  let mode ← form.givenMode.mapError LibraryFault.invalid
  .ok
    { id := Template.savedMark ++ Text.ofChars (intDigits time)
      name := name
      description := form.givenDescription
      category := "general"
      nodes := form.graph.nodes
      edges := form.graph.edges
      mode := mode
      thumbnail := none
      difficulty := "intermediate"
      estimatedTime := "5-15 minutes"
      tags := ["saved", "custom"] }

end TemplateForm

/-! ## Operations -/

namespace Library

/-- The library of a project, whose name is taken without blanks at its ends. -/
def openProject (project : Option Text) (folder : Path) : Except TemplateFault Library :=
  match project with
  | some name => if isBlankText name then .error .noProject else .ok ⟨strip name, folder⟩
  | none => .error .noProject

/-- The path of the file of a library. -/
def path (library : Library) : Path :=
  library.folder ++ .ofText (Storage.fileName library.project)

/-- The templates that the file of a library holds, if they can be read; where there is no file
there are no templates. -/
def listing (library : Library) (storage : Storage) :
    Except LibraryFault (Option (List Template)) :=
  match storage.find library.project with
  | .error fault => .error (.storage fault)
  | .ok none => .ok (some [])
  | .ok (some content) => (Template.ofFile content).mapError .tooDeep

/-- The templates of a library. -/
def templates (library : Library) (storage : Storage) : Except LibraryFault (List Template) :=
  (library.listing storage).map fun found ↦ found.getD []

/-- What is reported when the templates of a library are read. -/
def readNotices (library : Library) (storage : Storage) : List Notice :=
  match library.listing storage with
  | .ok none => [.templatesUnreadable]
  | _ => []

/-- The first template with an id. -/
def get (library : Library) (storage : Storage) (id : Text) : Except LibraryFault Template := do
  match (← library.templates storage).find? fun t ↦ t.id = id with
  | some t => .ok t
  | none => .error (.refused (.notFound id))

/-- The templates that a term finds in a category; blanks around the term do not count. -/
def search (library : Library) (storage : Storage) (term category : Text) :
    Except LibraryFault (List Template) :=
  (library.templates storage).map fun ts ↦ ts.filter fun t ↦ t.isFound (strip term) category

/-- Writes the templates of a library. The shared folder is made first. -/
def write (library : Library) (storage : Storage) (ts : List Template) :
    Change LibraryFault Unit :=
  match storage.makeFault?, Template.fileText ts with
  | some fault, _ => .refused storage (.storage fault)
  | none, .error fault => .refused storage.made (.unwritable fault)
  | none, .ok s =>
    let change := storage.write library.project (.text s)
    ⟨change.storage, change.outcome.mapError .storage⟩

/-- Saves a workflow as a template, after those that are there. -/
def save (library : Library) (storage : Storage) (form : TemplateForm) :
    Change LibraryFault Template :=
  match form.template, library.templates storage with
  | .error fault, _ => .refused storage fault
  | .ok _, .error fault => .refused storage fault
  | .ok t, .ok ts =>
    let change := library.write storage (ts ++ [t])
    ⟨change.storage, change.outcome.map fun _ ↦ t⟩

/-- What is reported when a workflow is saved as a template. -/
def saveNotices (library : Library) (storage : Storage) (form : TemplateForm) : List Notice :=
  match form.template with
  | .error _ => []
  | .ok _ =>
    library.readNotices storage ++
      match (library.save storage form).outcome with
      | .ok t => [.templateSaved t.name t.id library.project]
      | .error _ => []

/-- Deletes the templates with an id, of which there has to be one. -/
def delete (library : Library) (storage : Storage) (id : Text) : Change LibraryFault Unit :=
  match library.templates storage with
  | .error fault => .refused storage fault
  | .ok ts =>
    let remaining := ts.filter fun t ↦ t.id ≠ id
    if remaining.length = ts.length then .refused storage (.refused (.notFound id))
    else library.write storage remaining

end Library

end AgentFlow
