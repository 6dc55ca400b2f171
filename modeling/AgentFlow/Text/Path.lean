import AgentFlow.Text.Basic

/-!
# Paths

Paths of files and folders with slashes. A path is kept in normal form: empty components and `.` are
left out, `..` stays, and the number of leading slashes counts only when it is two. So two texts of
the same normal form are the same path.
-/

namespace AgentFlow

/-! ## Types -/

/-- Where a path starts. -/
inductive PathRoot where
  /-- At the current folder. -/
  | here
  /-- At the root. -/
  | top
  /-- At the root that two slashes name. -/
  | special
  deriving DecidableEq

/-- The text of a start. -/
def PathRoot.text : PathRoot → String
  | .here => ""
  | .top => "/"
  | .special => "//"

/-- A path in normal form. -/
structure Path where
  /-- Where it starts. -/
  root : PathRoot
  /-- Its components. -/
  parts : List Text
  deriving DecidableEq

/-- Cuts a text at every slash. -/
def cutAtSlashes : Text → List Text
  | [] => [[]]
  | c :: t =>
    if c = '/' then [] :: cutAtSlashes t
    else
      match cutAtSlashes t with
      | piece :: pieces => (c :: piece) :: pieces
      | [] => [[c]]

/-- The start that a run of leading slashes names. -/
def PathRoot.ofSlashes : Nat → PathRoot
  | 0 => .here
  | 2 => .special
  | _ => .top

namespace Path

/-- The path of a text. -/
def ofText (t : Text) : Path where
  root := .ofSlashes (t.takeWhile (· = .char '/')).length
  parts := (cutAtSlashes t).filter fun part ↦ part ≠ "" && part ≠ "."

/-- The text of a path. -/
def text (p : Path) : Text :=
  if p.root = .here ∧ p.parts.isEmpty then "." else p.root.text ++ List.intercalate "/" p.parts

/-- A path followed from another one; a path from the root stays what it is. -/
def append (p q : Path) : Path := if q.root = .here then ⟨p.root, p.parts ++ q.parts⟩ else q

instance : Append Path := ⟨append⟩

/-- The last component, empty if there is none. -/
def name (p : Path) : Text := p.parts.getLastD ""

/-- The path without its last component. -/
def parent (p : Path) : Path := { p with parts := p.parts.dropLast }

/-! ## Home folders -/

/-- Why a path stands for no folder. -/
inductive Fault where
  /-- It starts at the home folder of a user who is not known. -/
  | homeUnknown
  deriving DecidableEq

/-- The wording of a fault. -/
def Fault.message : Fault → String
  | .homeUnknown => "Could not determine home directory."

/-- The path with a first component `~` replaced by a home folder, if that is known. The homes of
other users are not known. -/
def expandHome (p : Path) (home : Except Fault Path) : Except Fault Path :=
  match p.root, p.parts with
  | .here, first :: rest =>
    if first = "~" then home.map (· ++ ⟨.here, rest⟩)
    else if first.head? = some (.char '~') then .error .homeUnknown
    else .ok p
  | _, _ => .ok p

end Path

end AgentFlow
