import AgentFlow.Payload.Scalar
import AgentFlow.Payload.Writing

/-!
# Branch conditions

A connection carries a condition that says when it is followed. On the canvas a condition is an
object keyed by variant. For the markers `onSuccess`, `onFailure` and `always` the presence of the
key is what counts, for the two comparisons their value; so a `Condition` keeps which keys are
present.

An object may carry several keys. `Condition.branch` resolves it to the one `Branch` that it means,
in the order success, failure, always, contains, equals; an object that means none of them means
always. A condition is normal when it has the key of its branch and no other.
-/

namespace AgentFlow

/-! ## Types -/

/-- A comparison of a field of a step's output with a text. -/
structure FieldMatch where
  /-- The field that is looked at. -/
  field : Text
  /-- The text that it is compared with. -/
  value : Text
  deriving DecidableEq

/-- A condition as it is drawn: for each key, whether it is present and with which value. -/
structure Condition where
  /-- The marker for success. -/
  onSuccess : Option Json
  /-- The marker for failure. -/
  onFailure : Option Json
  /-- The marker for always. -/
  always : Option Json
  /-- The test whether a field contains a text; null tests nothing. -/
  ifContains : Option (Option FieldMatch)
  /-- The test whether a field equals a text; null tests nothing. -/
  ifEquals : Option (Option FieldMatch)
  deriving DecidableEq

/-- What a condition means. -/
inductive Branch where
  /-- Followed when the step succeeds. -/
  | onSuccess
  /-- Followed when the step fails. -/
  | onFailure
  /-- Always followed. -/
  | always
  /-- Followed when a field contains a text. -/
  | ifContains (test : FieldMatch)
  /-- Followed when a field equals a text. -/
  | ifEquals (test : FieldMatch)
  deriving DecidableEq

/-- The five kinds of branches. -/
inductive BranchKind where
  /-- On success. -/
  | onSuccess
  /-- On failure. -/
  | onFailure
  /-- Always. -/
  | always
  /-- If a field contains a text. -/
  | ifContains
  /-- If a field equals a text. -/
  | ifEquals
  deriving DecidableEq

/-- The name of a kind. -/
def BranchKind.name : BranchKind → String
  | .onSuccess => "on_success"
  | .onFailure => "on_failure"
  | .always => "always"
  | .ifContains => "if_contains"
  | .ifEquals => "if_equals"

/-! ## Meaning -/

namespace Branch

/-- The kind of a branch. -/
def kind : Branch → BranchKind
  | .onSuccess => .onSuccess
  | .onFailure => .onFailure
  | .always => .always
  | .ifContains _ => .ifContains
  | .ifEquals _ => .ifEquals

/-- The label of a branch on the canvas. -/
def label : Branch → Text
  | .onSuccess => "On Success"
  | .onFailure => "On Failure"
  | .always => "Always"
  | .ifContains test => "If Contains: " ++ test.field ++ " = " ++ test.value
  | .ifEquals test => "If Equals: " ++ test.field ++ " = " ++ test.value

/-- The condition with the key of the branch and no other. -/
def condition : Branch → Condition
  | .onSuccess => ⟨some .null, none, none, none, none⟩
  | .onFailure => ⟨none, some .null, none, none, none⟩
  | .always => ⟨none, none, some .null, none, none⟩
  | .ifContains test => ⟨none, none, none, some (some test), none⟩
  | .ifEquals test => ⟨none, none, none, none, some (some test)⟩

end Branch

namespace Condition

/-- What a condition means. -/
def branch (c : Condition) : Branch :=
  if c.onSuccess.isSome then .onSuccess
  else if c.onFailure.isSome then .onFailure
  else if c.always.isSome then .always
  else
    match c.ifContains, c.ifEquals with
    | some (some test), _ => .ifContains test
    | _, some (some test) => .ifEquals test
    | _, _ => .always

/-- The kind of a condition. -/
def kind (c : Condition) : BranchKind := c.branch.kind

/-- The label of a condition on the canvas. -/
def label (c : Condition) : Text := c.branch.label

/-- The condition with the one key that counts. -/
def normalized (c : Condition) : Condition := c.branch.condition

/-- The condition that always holds. -/
def alwaysTrue : Condition := Branch.condition .always

end Condition

@[simp] theorem Branch.branch_condition (b : Branch) : b.condition.branch = b := by
  cases b <;> rfl

@[simp] theorem Condition.branch_normalized (c : Condition) : c.normalized.branch = c.branch :=
  Branch.branch_condition _

theorem Condition.normalized_normalized (c : Condition) :
    c.normalized.normalized = c.normalized := by
  rw [Condition.normalized, Condition.branch_normalized]
  rfl

/-! ## Payloads -/

namespace FieldMatch

/-- The fields of a comparison. -/
def record : Record FieldMatch :=
  FieldMatch.mk <$> .required .field Reading.text <*> .required .value Reading.text

/-- Reads a comparison. -/
def read : Json → Reading FieldMatch := record.read

/-- Writes a comparison. -/
def write (s : Spelling) (test : FieldMatch) : Json :=
  .record s [(.field, .string test.field), (.value, .string test.value)]

end FieldMatch

namespace Condition

/-- Reads the value of a marker. -/
def readMarker (v : Json) : Reading (Option Json) := .map some (.anything v)

/-- Reads the value of a test. -/
def readTest (v : Json) : Reading (Option (Option FieldMatch)) :=
  .map some (.nullable FieldMatch.read v)

/-- The fields of a condition. -/
def record : Record Condition :=
  Condition.mk <$> .optional .onSuccess none readMarker <*> .optional .onFailure none readMarker
    <*> .optional .always none readMarker <*> .optional .ifContains none readTest
    <*> .optional .ifEquals none readTest

/-- Reads a condition. -/
def read : Json → Reading Condition := record.read

/-- The present keys of a condition with their values. -/
def present (s : Spelling) (c : Condition) : List (Key × Json) :=
  [(Key.onSuccess, c.onSuccess.map .finite), (Key.onFailure, c.onFailure.map .finite),
   (Key.always, c.always.map .finite),
   (Key.ifContains, c.ifContains.map (.ofOption (FieldMatch.write s))),
   (Key.ifEquals, c.ifEquals.map (.ofOption (FieldMatch.write s)))].filterMap
    fun f ↦ f.2.map fun v ↦ (f.1, v)

/-- Writes the present keys of a condition. -/
def write (s : Spelling) (c : Condition) : Json := .record s (c.present s)

/-- The values of the markers that are present. -/
def markers (c : Condition) : List Json := [c.onSuccess, c.onFailure, c.always].filterMap id

/-- Whether the free values of a condition are copied. -/
def isCopied (c : Condition) : Bool := c.markers.all Json.isCopied

/-- What keeps a condition from being written: first a marker that cannot be written by itself, then
one that cannot be so a level further down. -/
def writeFault? (c : Condition) : Option WriteFault :=
  ((c.markers.findSome? fun v ↦ v.freeFault? 0).map .marker).or
    ((c.markers.findSome? fun v ↦ v.freeFault? 1).map .free)

end Condition

/-! A condition in normal form has no free value but null. -/

theorem Branch.isCopied_condition (b : Branch) : b.condition.isCopied := by
  cases b <;> rfl

theorem Branch.writeFault?_condition (b : Branch) : b.condition.writeFault? = none := by
  cases b <;> rfl

end AgentFlow
