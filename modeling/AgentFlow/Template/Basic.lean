import AgentFlow.Canvas.ExecutionMode
import AgentFlow.Canvas.Graph
import AgentFlow.Text.Lowercase

/-!
# Templates

A workflow that can be used as a start for others. Templates that a user has saved are known by
their ids. A search term is looked for in the name, the description and the tags, in any case of
letters.
-/

namespace AgentFlow

/-- A workflow as a start for others. -/
structure Template where
  /-- The id. -/
  id : Text
  /-- The name. -/
  name : Text
  /-- The description. -/
  description : Text
  /-- The category. -/
  category : Text
  /-- The nodes of the canvas. -/
  nodes : List Node
  /-- The edges of the canvas. -/
  edges : List Edge
  /-- How the steps are run. -/
  mode : ExecutionMode
  /-- A picture of the canvas. -/
  thumbnail : Option Text
  /-- How hard it is to use. -/
  difficulty : Text
  /-- How long it takes. -/
  estimatedTime : Text
  /-- The tags. -/
  tags : List Text
  deriving DecidableEq

namespace Template

/-! ## Search -/

/-- What the ids of saved templates start with. -/
def savedMark : String := "saved-"

/-- The category that stands for all. -/
def allCategories : String := "all"

/-- Whether a template was saved by a user. -/
def isSaved (t : Template) : Bool := (savedMark : Text).isPrefixOf t.id

/-- Whether a template is shown in a category; saved ones are shown in all. -/
def inCategory (t : Template) (category : Text) : Bool :=
  category = allCategories || t.category = category || t.isSaved

/-- Whether a term stands in a text, in any case of letters. -/
def mentions (term text : Text) : Bool :=
  occursIn (lowercase term) (lowercase text)

/-- Whether a term stands in one of the texts of a template; the empty term does. -/
def isAbout (t : Template) (term : Text) : Bool :=
  term = "" || mentions term t.name || mentions term t.description || t.tags.any (mentions term)

/-- Whether a template is found by a term in a category. -/
def isFound (t : Template) (term category : Text) : Bool :=
  t.inCategory category && t.isAbout term

/-! ## Payloads -/

/-- The fields of a template. -/
def record : Record Template :=
  Template.mk <$> .required .id Reading.text <*> .required .name Reading.text
    <*> .optional .description "" Reading.text
    <*> .optional .category "general" Reading.text
    <*> .optional .nodes [] (Reading.list Node.read)
    <*> .optional .edges [] (Reading.list Edge.read)
    <*> .optional .executionMode .sequential (Reading.choice ExecutionMode.ofName? .notChoice)
    <*> .optional .thumbnail none (Reading.nullable Reading.text)
    <*> .optional .difficulty "intermediate" Reading.text
    <*> .optional .estimatedTime "" Reading.text
    <*> .optional .tags [] (Reading.list Reading.text)

/-- Reads a template. -/
def read : Json → Reading Template := record.read

/-- Writes a template. -/
def write (s : Spelling) (t : Template) : Json :=
  .record s
    [(.id, .string t.id), (.name, .string t.name), (.description, .string t.description),
     (.category, .string t.category), (.nodes, .ofList (Node.write s) t.nodes),
     (.edges, .ofList (Edge.write s) t.edges), (.executionMode, .string t.mode.name),
     (.thumbnail, .ofOption .string t.thumbnail), (.difficulty, .string t.difficulty),
     (.estimatedTime, .string t.estimatedTime), (.tags, .ofList .string t.tags)]

/-- What keeps a template from being written. -/
def writeFault? (t : Template) : Option WriteFault := Graph.writeFault? ⟨t.nodes, t.edges⟩

end Template

end AgentFlow
