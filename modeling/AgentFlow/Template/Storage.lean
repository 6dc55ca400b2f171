import AgentFlow.Text.Path
import AgentFlow.Text.Utf8

/-!
# Template files

Every project has one file of templates, in a folder that all projects share. Which file that is,
its path decides, and names of files are bytes: two projects whose names have the same bytes have
the same file (`Utf8.encodeName`), and so have two whose paths lead to the same place, since a slash
in the name of a project leads to a folder and two dots lead back (`Storage.reach`). Names are
bounded in length, no name holds the null character, and some texts are no names at all.

A folder on the way has to be there. The shared folder is made before a file is first written, but
no folder below it. Only a folder that is there tells that a name in it is too long; so the first
write can make a file that was missing one that cannot be looked up.

A file holds a text or bytes that are no text. Opening a file for writing empties it, so a text that
cannot be encoded leaves an empty file.
-/

namespace AgentFlow

/-! ## Contents -/

/-- What a file holds. -/
inductive FileContent where
  /-- A text. -/
  | text (s : Text)
  /-- Bytes that are no text. -/
  | undecodable (fault : Utf8.DecodeFault)
  deriving DecidableEq

/-- What a file of these bytes holds. -/
def FileContent.ofBytes (bytes : List UInt8) : FileContent :=
  match Utf8.decode bytes with
  | .ok s => .text s
  | .error fault => .undecodable fault

/-- The same lines with a line feed at the end of each: carriage returns, with or without a line
feed, end lines too. -/
def joinLines : Text → Text
  | [] => []
  | .char '\r' :: .char '\n' :: t => .char '\n' :: joinLines t
  | c :: t => (if c = '\r' then .char '\n' else c) :: joinLines t

/-- The text of a file. -/
def FileContent.read : FileContent → Except Utf8.DecodeFault Text
  | .text s => .ok (joinLines s)
  | .undecodable fault => .error fault

/-! ## Files and folders -/

/-- The name of a file or folder. -/
abbrev FileName := List UInt8

/-- Where a file or folder lies: the names on the way to it from the root. -/
abbrev FilePlace := List FileName

/-- Files and folders, and which folder the projects share. -/
structure Storage where
  /-- The path of the shared folder, which need not be there. -/
  folder : Path
  /-- Folders. Those that they lie in are there too. -/
  folders : List FilePlace
  /-- Files, by their places, with the latest content first. The folders that they lie in are there
  too. -/
  files : List (FilePlace × FileContent)
  deriving DecidableEq

/-- Why a file cannot be found or written. -/
inductive StorageFault where
  /-- Its name holds the null character. -/
  | nullInName
  /-- Its name is too long. -/
  | nameTooLong
  /-- A folder that it would lie in does not exist. -/
  | noFolder
  /-- A file lies where a folder should be, or a folder where the file should be. -/
  | notFolder
  /-- Its name or its text cannot be encoded. -/
  | unencodable (cause : Utf8.EncodeFault)
  deriving DecidableEq

/-- The wording of a fault. -/
def StorageFault.message : StorageFault → String
  | .nullInName => "embedded null byte"
  | .nameTooLong => "File name too long"
  | .noFolder => "No such file or directory"
  | .notFolder => "Not a directory"
  | .unencodable cause => cause.message

/-- What a change comes to: the files after it, and the outcome. -/
structure Change (ε α : Type) where
  /-- The files after the change. -/
  storage : Storage
  /-- What came of it. -/
  outcome : Except ε α

/-- A change that is refused before anything is written. -/
def Change.refused (storage : Storage) (fault : ε) : Change ε α := ⟨storage, .error fault⟩

namespace Storage

/-- The storage without files and folders. -/
def empty : Storage := ⟨.ofText "/store", [], []⟩

/-- The content of the file at a place. -/
def contentAt? (storage : Storage) (place : FilePlace) : Option FileContent :=
  storage.files.lookup place

/-- The storage in which the file at a place has a new content. -/
def put (storage : Storage) (place : FilePlace) (content : FileContent) : Storage :=
  { storage with files := (place, content) :: storage.files }

/-- Whether there is a folder at a place. -/
def isFolder (storage : Storage) (place : FilePlace) : Bool :=
  ([] :: storage.folders ++ storage.files.map fun f ↦ f.1.dropLast).any (place.isPrefixOf ·)

/-- Whether a file lies at a place or on the way to it. -/
def isBlocked (storage : Storage) (place : FilePlace) : Bool :=
  storage.files.any fun f ↦ f.1.isPrefixOf place

/-- The place that a name leads to from a folder; two dots lead to the folder that it lies in. -/
def enter (place : FilePlace) (name : FileName) : FilePlace :=
  if name = Utf8.encodeName ".." then place.dropLast else place ++ [name]

/-! ### The shared folder -/

/-- The place of the shared folder. -/
def home (storage : Storage) : FilePlace :=
  (storage.folder.parts.map Utf8.encodeName).foldl enter []

/-- Whether the shared folder is there. -/
def isMade (storage : Storage) : Bool := storage.isFolder storage.home

/-- What keeps the shared folder from being made. -/
def makeFault? (storage : Storage) : Option StorageFault :=
  if !storage.isMade && storage.isBlocked storage.home then some .notFolder else none

/-- The storage once the shared folder has been made, if nothing keeps it from that. -/
def made (storage : Storage) : Storage :=
  if storage.isMade || storage.isBlocked storage.home then storage
  else { storage with folders := storage.home :: storage.folders }

/-! ### Names -/

/-- The name of the file of a project in the shared folder. -/
def fileName (project : Text) : Text := "workflow-templates-" ++ project ++ ".json"

/-- The path of the file of a project. -/
def path (storage : Storage) (project : Text) : Path :=
  storage.folder ++ .ofText (fileName project)

/-- The names on the way from the shared folder to the file of a project. -/
def names (project : Text) : List FileName :=
  (Path.ofText (fileName project)).parts.map Utf8.encodeName

/-- The greatest length of a name in bytes. -/
def maxNameBytes : Nat := 255

/-- The greatest length of a path in bytes. -/
def maxPathBytes : Nat := 4095

/-- What lies between a project and its file. -/
inductive Obstacle where
  /-- The path is the path of no file. -/
  | unencodable (cause : Utf8.EncodeFault)
  /-- The path holds the null character. -/
  | null
  /-- The path or a name on the way is too long. -/
  | tooLong
  /-- There is no folder at a place on the way. -/
  | missing (place : FilePlace)
  deriving DecidableEq

/-- What keeps a path from being looked up at all. -/
def pathObstacle? (path : Text) : Option Obstacle :=
  match Utf8.nameFault? path with
  | some cause => some (.unencodable cause)
  | none =>
    if .char '\x00' ∈ path then some .null
    else if maxPathBytes < (Utf8.encodeName path).length then some .tooLong
    else none

/-- The place that names lead to from a folder, if all but the last lead to folders. -/
def follow (storage : Storage) (place : FilePlace) : List FileName → Except Obstacle FilePlace
  | [] => .ok place
  | name :: rest =>
    if maxNameBytes < name.length then .error .tooLong
    else if rest.isEmpty || storage.isFolder (enter place name) then
      storage.follow (enter place name) rest
    else .error (.missing (enter place name))

/-- The place of the file of a project. -/
def reach (storage : Storage) (project : Text) : Except Obstacle FilePlace :=
  match pathObstacle? (storage.path project).text with
  | some obstacle => .error obstacle
  | none =>
    if storage.isMade then storage.follow storage.home (names project)
    else .error (.missing storage.home)

/-- What a write meets at an obstacle. -/
def obstacleFault (storage : Storage) : Obstacle → StorageFault
  | .unencodable cause => .unencodable cause
  | .null => .nullInName
  | .tooLong => .nameTooLong
  | .missing place => if storage.isBlocked place then .notFolder else .noFolder

/-- Finds the file of a project. Most names that cannot be looked up are names of no file. -/
def find (storage : Storage) (project : Text) : Except StorageFault (Option FileContent) :=
  match storage.reach project with
  | .ok place =>
    if storage.isFolder place then .error .notFolder else .ok (storage.contentAt? place)
  | .error .tooLong => .error .nameTooLong
  | .error _ => .ok none

/-- The file of a project. -/
def file? (storage : Storage) (project : Text) : Option FileContent :=
  match storage.find project with
  | .ok content => content
  | .error _ => none

/-- What keeps a content from being encoded. -/
def encodeFault? : FileContent → Option Utf8.EncodeFault
  | .text s => Utf8.encodeFault? s
  | .undecodable _ => none

/-- Writes the file of a project, in the shared folder. -/
def write (storage : Storage) (project : Text) (content : FileContent) :
    Change StorageFault Unit :=
  match storage.makeFault?, storage.made.reach project with
  | some fault, _ => .refused storage fault
  | none, .error obstacle => .refused storage.made (storage.made.obstacleFault obstacle)
  | none, .ok place =>
    if storage.made.isFolder place then .refused storage.made .notFolder
    else
      match encodeFault? content with
      | some fault => ⟨storage.made.put place (.text ""), .error (.unencodable fault)⟩
      | none => ⟨storage.made.put place content, .ok ()⟩

end Storage

end AgentFlow
