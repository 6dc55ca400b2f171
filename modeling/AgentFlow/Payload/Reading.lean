import AgentFlow.Payload.Key

/-!
# Reading payloads

Canvas payloads are JSON objects that people and programs write, so reading them is forgiving in two
ways and strict in one. A field may go by either of its two spellings, and scalars are converted
where that is safe; but every field that does not fit is reported, with the way to it and the cause,
in the order in which the fields are declared.

A reader is a function from a value to a `Reading`. What it accepts comes with two tallies, which
decide between the alternatives of a union (`oneOf`): how many fields were given explicitly, counted
through nested records, and whether every scalar already had its own form.
-/

namespace AgentFlow

/-! ## Faults -/

/-- A step on the way to a fault. -/
inductive Place where
  /-- Into a field. -/
  | field (name : String)
  /-- Into an item of a list. -/
  | item (index : Nat)
  /-- Into an alternative of a union. -/
  | variant (name : String)
  deriving DecidableEq

/-- Why a value does not fit. -/
inductive Cause where
  /-- A field that must be given is not. -/
  | missing
  /-- No object where a record is expected. -/
  | notRecord
  /-- No array where a list is expected. -/
  | notList
  /-- No object where a free mapping is expected. -/
  | notMapping
  /-- No text. -/
  | notText
  /-- None of the names of a choice. -/
  | notChoice
  /-- None of the fixed texts. -/
  | notLiteral
  /-- Something where only null may stand. -/
  | notNull
  /-- No text where a path is expected. -/
  | notPath
  /-- Nothing that can be a truth value. -/
  | notFlag
  /-- A number or text that names no truth value. -/
  | unreadableFlag
  /-- Nothing that can be a whole number. -/
  | notInteger
  /-- A text that writes no whole number. -/
  | unreadableInteger
  /-- A number with a fraction where a whole one is expected. -/
  | fractional
  /-- A number without a fraction, or a text that writes one, too large to be taken for a whole
  one. -/
  | integerTooLarge
  /-- An infinity or NaN where a whole number is expected. -/
  | notFinite
  /-- Nothing that can be a number. -/
  | notNumber
  /-- A text that writes no number. -/
  | unreadableNumber
  /-- A number below zero. -/
  | negative
  /-- Nothing that can be a point in time. -/
  | notMoment
  /-- A number that is no point in time, or a point in time in the year zero, which the calendar
  lacks. -/
  | unreadableMoment
  /-- A text that writes neither a point in time nor a day. -/
  | unreadableDay
  /-- A text that is not JSON. -/
  | notJson
  deriving DecidableEq

/-- The code under which a cause is reported. -/
def Cause.code : Cause → String
  | .missing => "missing"
  | .notRecord => "model_type"
  | .notList => "list_type"
  | .notMapping => "dict_type"
  | .notText => "string_type"
  | .notChoice => "enum"
  | .notLiteral => "literal_error"
  | .notNull => "none_required"
  | .notPath => "path_type"
  | .notFlag => "bool_type"
  | .unreadableFlag => "bool_parsing"
  | .notInteger => "int_type"
  | .unreadableInteger => "int_parsing"
  | .fractional => "int_from_float"
  | .integerTooLarge => "int_parsing_size"
  | .notFinite => "finite_number"
  | .notNumber => "float_type"
  | .unreadableNumber => "float_parsing"
  | .negative => "greater_than_equal"
  | .notMoment => "datetime_type"
  | .unreadableMoment => "datetime_parsing"
  | .unreadableDay => "datetime_from_date_parsing"
  | .notJson => "json_invalid"

/-- A value that does not fit. -/
structure Fault where
  /-- The way to the value. -/
  path : List Place
  /-- Why it does not fit. -/
  cause : Cause
  deriving DecidableEq

/-- The fault seen from one step further out. -/
def Fault.under (place : Place) (fault : Fault) : Fault := ⟨place :: fault.path, fault.cause⟩

/-! ## Readings -/

/-- An accepted value. -/
structure Accepted (α : Type) where
  /-- What was read. -/
  value : α
  /-- The fields that were given at this level, in declaration order. -/
  given : List Key
  /-- The number of fields that were given at this level and below it. -/
  weight : Nat
  /-- Whether no scalar had to be converted. -/
  exact : Bool

/-- What reading a value comes to: an accepted value, or all that does not fit. -/
abbrev Reading (α : Type) := Except (List Fault) (Accepted α)

namespace Reading

variable {α β γ : Type}

/-- Accepts a value that had its own form. -/
def exactly (a : α) : Reading α := .ok ⟨a, [], 0, true⟩

/-- Accepts a value that had to be converted. -/
def converted (a : α) : Reading α := .ok ⟨a, [], 0, false⟩

/-- Refuses the value that is being read. -/
def refuse (cause : Cause) : Reading α := .error [⟨[], cause⟩]

/-- Changes the accepted value. -/
def map (f : α → β) : Reading α → Reading β
  | .ok a => .ok ⟨f a.value, a.given, a.weight, a.exact⟩
  | .error faults => .error faults

/-- The reading seen from one step further out. -/
def under (place : Place) : Reading α → Reading α
  | .ok a => .ok a
  | .error faults => .error (faults.map (Fault.under place))

/-- Joins two readings; the faults of both are kept. -/
def both (f : α → β → γ) : Reading α → Reading β → Reading γ
  | .ok a, .ok b =>
    .ok ⟨f a.value b.value, a.given ++ b.given, a.weight + b.weight, a.exact && b.exact⟩
  | .error fs, .ok _ => .error fs
  | .ok _, .error gs => .error gs
  | .error fs, .error gs => .error (fs ++ gs)

/-- The accepted value alone. -/
def value? : Reading α → Option α
  | .ok a => some a.value
  | .error _ => none

/-- The accepted value or the faults. -/
def result : Reading α → Except (List Fault) α
  | .ok a => .ok a.value
  | .error faults => .error faults

end Reading

/-! ## Records -/

/-- A reader of the fields of one object. -/
structure Record (α : Type) where
  /-- Reads the fields. -/
  run : Fields → Reading α

namespace Record

variable {α β : Type}

instance : Applicative Record where
  pure a := ⟨fun _ ↦ Reading.exactly a⟩
  seq f x := ⟨fun fields ↦ Reading.both (fun g a ↦ g a) (f.run fields) ((x ()).run fields)⟩

/-- A field that was found, which adds itself to the tallies. -/
def found (k : Key) (name : String) : Reading α → Reading α
  | .ok a => .ok ⟨a.value, [k], a.weight + 1, a.exact⟩
  | .error faults => .error (faults.map (Fault.under (.field name)))

/-- A field that must be given. -/
def required (k : Key) (read : Json → Reading α) : Record α where
  run fields :=
    match fields.find? k with
    | some (name, v) => found k name (read v)
    | none => .error [⟨[.field k.wire], .missing⟩]

/-- A field that stands for a default when it is not given. -/
def optional (k : Key) (default : α) (read : Json → Reading α) : Record α where
  run fields :=
    match fields.find? k with
    | some (name, v) => found k name (read v)
    | none => Reading.exactly default

/-- Reads an object. -/
def read (r : Record α) : Json → Reading α
  | .object fields => r.run fields
  | _ => Reading.refuse .notRecord

end Record

/-! ## Lists, null and unions -/

namespace Reading

variable {α : Type}

/-- Reads the items of a list from a position on. -/
def items (read : Json → Reading α) : Nat → List Json → Reading (List α)
  | _, [] => exactly []
  | i, v :: vs => both (· :: ·) (under (.item i) (read v)) (items read (i + 1) vs)

/-- Reads a list. -/
def list (read : Json → Reading α) : Json → Reading (List α)
  | .array vs => items read 0 vs
  | _ => refuse .notList

/-- Reads values one by one and stops at the first that does not fit; its faults are not told by its
position. -/
def each (read : Json → Reading α) (vs : List Json) : Except (List Fault) (List α) :=
  vs.mapM fun v ↦ (read v).result

/-- Reads a value that may be null. -/
def nullable (read : Json → Reading α) : Json → Reading (Option α)
  | .null => exactly none
  | v => map some (read v)

/-- The better of two accepted alternatives: more given fields first, then no conversion, then the
one declared first. -/
def better (best next : Accepted α) : Accepted α :=
  if best.weight < next.weight ∨ (best.weight = next.weight ∧ !best.exact ∧ next.exact) then next
  else best

/-- Reads a union: the best of the alternatives that accept the value, or the faults of all. -/
def oneOf (members : List (String × (Json → Reading α))) (v : Json) : Reading α :=
  match members.filterMap fun m ↦ (m.2 v).toOption with
  | first :: rest => .ok (rest.foldl better first)
  | [] => .error (members.flatMap fun m ↦
      match m.2 v with
      | .ok _ => []
      | .error faults => faults.map (Fault.under (.variant m.1)))

end Reading

end AgentFlow
