import AgentFlow.Payload.Scalar

/-!
# Loops

A step may be run for each item of a list, while a condition holds, a number of times, or expressly
once.
-/

namespace AgentFlow

/-! ## Types -/

/-- A run for each item of a list. -/
structure ForEach where
  /-- Where the list comes from. -/
  source : Text
  /-- The name of the item. -/
  itemVariable : Text
  /-- The name of its index. -/
  indexVariable : Text
  /-- The greatest number of runs, if there is one. -/
  maxIterations : Option Int
  deriving DecidableEq

/-- A run while a condition holds. -/
structure While where
  /-- The condition. -/
  condition : Text
  /-- The greatest number of runs, if there is one. -/
  maxIterations : Option Int
  deriving DecidableEq

/-- A number of runs. -/
structure Repeat where
  /-- How many runs. -/
  count : Int
  /-- The name of the index, if it has one. -/
  indexVariable : Option Text
  deriving DecidableEq

/-- How often a step is run. -/
inductive Loop where
  /-- For each item of a list. -/
  | forEach (loop : ForEach)
  /-- While a condition holds. -/
  | whileHolds (loop : While)
  /-- A number of times. -/
  | repeated (loop : Repeat)
  /-- Once. -/
  | once
  deriving DecidableEq

/-! ## Payloads -/

/-- Reads a bound on the number of runs. -/
def Loop.readBound : Json → Reading (Option Int) := .nullable .integer

/-- Writes a bound on the number of runs. -/
def Loop.writeBound : Option Int → Json := .ofOption .int

namespace ForEach

/-- The fields of a run for each item. -/
def record : Record ForEach :=
  ForEach.mk <$> .required .arraySource Reading.text <*> .optional .itemVariable "item" Reading.text
    <*> .optional .indexVariable "index" Reading.text
    <*> .optional .maxIterations none Loop.readBound

/-- Reads a run for each item. -/
def read : Json → Reading ForEach := record.read

/-- Writes a run for each item. -/
def write (s : Spelling) (loop : ForEach) : Json :=
  .record s [(.arraySource, .string loop.source), (.itemVariable, .string loop.itemVariable),
    (.indexVariable, .string loop.indexVariable),
    (.maxIterations, Loop.writeBound loop.maxIterations)]

end ForEach

namespace While

/-- The fields of a run while a condition holds. -/
def record : Record While :=
  While.mk <$> .required .condition Reading.text <*> .optional .maxIterations none Loop.readBound

/-- Reads a run while a condition holds. -/
def read : Json → Reading While := record.read

/-- Writes a run while a condition holds. -/
def write (s : Spelling) (loop : While) : Json :=
  .record s [(.condition, .string loop.condition),
    (.maxIterations, Loop.writeBound loop.maxIterations)]

end While

namespace Repeat

/-- The fields of a number of runs. -/
def record : Record Repeat :=
  Repeat.mk <$> .required .count Reading.integer
    <*> .optional .indexVariable none (Reading.nullable Reading.text)

/-- Reads a number of runs. -/
def read : Json → Reading Repeat := record.read

/-- Writes a number of runs. -/
def write (s : Spelling) (loop : Repeat) : Json :=
  .record s [(.count, .int loop.count), (.indexVariable, .ofOption .string loop.indexVariable)]

end Repeat

namespace Loop

/-- Reads the alternative for each item. -/
def readForEach : Json → Reading Loop :=
  (Loop.forEach <$> Record.required .forEach ForEach.read).read

/-- Reads the alternative with a condition. -/
def readWhile : Json → Reading Loop :=
  (Loop.whileHolds <$> Record.required .whileLoop While.read).read

/-- Reads the alternative with a number. -/
def readRepeat : Json → Reading Loop :=
  (Loop.repeated <$> Record.required .repeated Repeat.read).read

/-- Reads the alternative that runs once. -/
def readOnce : Json → Reading Loop :=
  ((fun _ ↦ Loop.once) <$> Record.required .none Reading.null).read

/-- Reads a loop. -/
def read : Json → Reading Loop :=
  .oneOf [("ForEachLoop", readForEach), ("WhileLoop", readWhile), ("RepeatLoop", readRepeat),
    ("NoLoop", readOnce)]

/-- Writes a loop. -/
def write (s : Spelling) : Loop → Json
  | .forEach loop => .record s [(.forEach, loop.write s)]
  | .whileHolds loop => .record s [(.whileLoop, loop.write s)]
  | .repeated loop => .record s [(.repeated, loop.write s)]
  | .once => .record s [(.none, .null)]

end Loop

end AgentFlow
