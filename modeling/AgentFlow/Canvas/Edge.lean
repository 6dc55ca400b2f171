import AgentFlow.Condition

/-!
# Edges

A directed edge of the canvas, with the condition under which it is followed. Nothing keeps an edge
from naming an id that no node has.
-/

namespace AgentFlow

/-! ## Types -/

/-- How an edge is drawn. -/
inductive EdgeKind where
  /-- A plain edge. -/
  | default
  /-- An edge with a condition. -/
  | conditional
  /-- An edge into a parallel group. -/
  | parallel
  /-- An edge from a trigger. -/
  | trigger
  deriving DecidableEq

/-- The name of a kind. -/
def EdgeKind.name : EdgeKind → String
  | .default => "default"
  | .conditional => "conditional"
  | .parallel => "parallel"
  | .trigger => "trigger"

/-- The kind of a name. -/
def EdgeKind.ofName? (s : Text) : Option EdgeKind :=
  [EdgeKind.default, .conditional, .parallel, .trigger].find? (·.name = s)

/-- What is attached to an edge. -/
structure EdgeData where
  /-- The condition, if one is attached. -/
  condition : Option Condition
  /-- The label, if one is attached. -/
  label : Option Text
  deriving DecidableEq

/-- An edge of the canvas. -/
structure Edge where
  /-- The id of the edge. -/
  id : Text
  /-- The id of the node that it leaves. -/
  source : Text
  /-- The id of the node that it enters. -/
  target : Text
  /-- How it is drawn. -/
  kind : EdgeKind
  /-- Whether it is drawn in motion. -/
  animated : Bool
  /-- What is attached to it. -/
  data : Option EdgeData
  deriving DecidableEq

namespace Edge

/-- The condition of an edge; an edge without one is always followed. -/
def condition (e : Edge) : Condition := (e.data.bind EdgeData.condition).getD .alwaysTrue

/-- The two ends of an edge. -/
def arc (e : Edge) : Text × Text := (e.source, e.target)

end Edge

/-! ## Payloads -/

namespace EdgeData

/-- The fields of what is attached to an edge. -/
def record : Record EdgeData :=
  EdgeData.mk <$> .optional .condition none (Reading.nullable Condition.read)
    <*> .optional .label none (Reading.nullable Reading.text)

/-- Reads what is attached to an edge. -/
def read : Json → Reading EdgeData := record.read

/-- Writes what is attached to an edge. -/
def write (s : Spelling) (d : EdgeData) : Json :=
  .record s [(.condition, .ofOption (Condition.write s) d.condition),
    (.label, .ofOption .string d.label)]

/-- What keeps what is attached to an edge from being written. -/
def writeFault? (d : EdgeData) : Option WriteFault := d.condition.bind Condition.writeFault?

end EdgeData

namespace Edge

/-- The fields of an edge. -/
def record : Record Edge :=
  Edge.mk <$> .required .id Reading.text <*> .required .source Reading.text
    <*> .required .target Reading.text
    <*> .optional .type .default (Reading.choice EdgeKind.ofName? .notChoice)
    <*> .optional .animated false Reading.flag
    <*> .optional .data none (Reading.nullable EdgeData.read)

/-- Reads an edge. -/
def read : Json → Reading Edge := record.read

/-- Writes an edge. -/
def write (s : Spelling) (e : Edge) : Json :=
  .record s
    [(.id, .string e.id), (.source, .string e.source), (.target, .string e.target),
     (.type, .string e.kind.name), (.animated, .bool e.animated),
     (.data, .ofOption (EdgeData.write s) e.data)]

/-- Whether the free values of an edge are copied. -/
def isCopied (e : Edge) : Bool :=
  ((e.data.bind EdgeData.condition).map Condition.isCopied).getD true

/-- What keeps an edge from being written. -/
def writeFault? (e : Edge) : Option WriteFault := e.data.bind EdgeData.writeFault?

end Edge

end AgentFlow
