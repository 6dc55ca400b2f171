import AgentFlow.Number.Binary64
import AgentFlow.Text.Basic

/-!
# JSON values

A JSON value as the workflow formats use it: whole numbers and binary64 numbers are different
values, and an object is its fields in order. Objects that were read never repeat a key
(`Json.Distinct`); `Fields.put` is how a repeated key keeps its first place and its last value.
-/

namespace AgentFlow

/-- A JSON value. -/
inductive Json where
  /-- The null value. -/
  | null
  /-- A truth value. -/
  | bool (b : Bool)
  /-- A number written without fraction and exponent. -/
  | int (n : Int)
  /-- Any other number. -/
  | float (x : Binary64)
  /-- A text. -/
  | string (s : Text)
  /-- A list of values. -/
  | array (items : List Json)
  /-- Named values in order. -/
  | object (fields : List (Text × Json))

/-- The fields of an object in order. -/
abbrev Fields := List (Text × Json)

instance : Inhabited Json := ⟨.null⟩

/-! ## Equality -/

mutual

/-- Whether two values are the same. -/
def Json.beq : Json → Json → Bool
  | .null, .null => true
  | .bool a, .bool b => a == b
  | .int a, .int b => a == b
  | .float a, .float b => a == b
  | .string a, .string b => a == b
  | .array a, .array b => Json.beqItems a b
  | .object a, .object b => Json.beqFields a b
  | _, _ => false

/-- Whether two lists hold the same values. -/
def Json.beqItems : List Json → List Json → Bool
  | [], [] => true
  | a :: as, b :: bs => Json.beq a b && Json.beqItems as bs
  | _, _ => false

/-- Whether two objects have the same fields in the same order. -/
def Json.beqFields : Fields → Fields → Bool
  | [], [] => true
  | (k, a) :: as, (l, b) :: bs => k == l && Json.beq a b && Json.beqFields as bs
  | _, _ => false

end

mutual

theorem Json.beq_iff : ∀ a b : Json, Json.beq a b = true ↔ a = b
  | .null, b => by cases b <;> simp [Json.beq]
  | .bool _, b => by cases b <;> simp [Json.beq]
  | .int _, b => by cases b <;> simp [Json.beq]
  | .float _, b => by cases b <;> simp [Json.beq]
  | .string _, b => by cases b <;> simp [Json.beq]
  | .array as, b => by
    cases b <;> simp [Json.beq]
    exact Json.beqItems_iff as _
  | .object as, b => by
    cases b <;> simp [Json.beq]
    exact Json.beqFields_iff as _

theorem Json.beqItems_iff : ∀ as bs : List Json, Json.beqItems as bs = true ↔ as = bs
  | [], bs => by cases bs <;> simp [Json.beqItems]
  | a :: as, bs => by
    cases bs <;> simp [Json.beqItems, Json.beq_iff a, Json.beqItems_iff as]

theorem Json.beqFields_iff : ∀ as bs : Fields, Json.beqFields as bs = true ↔ as = bs
  | [], bs => by cases bs <;> simp [Json.beqFields]
  | (k, a) :: as, bs => by
    cases bs with
    | nil => simp [Json.beqFields]
    | cons b bs =>
      simp [Json.beqFields, Json.beq_iff a, Json.beqFields_iff as, Prod.ext_iff]

end

instance : DecidableEq Json := fun a b ↦ decidable_of_iff _ (Json.beq_iff a b)

/-! ## Fields -/

namespace Fields

/-- Sets a field: the value of a key that is there is replaced where it stands, a new key goes to
the end. -/
def put : Fields → Text → Json → Fields
  | [], key, v => [(key, v)]
  | (k, w) :: rest, key, v => if k = key then (key, v) :: rest else (k, w) :: put rest key v

/-- The fields that a run of assignments leaves. -/
def ofPairs (pairs : List (Text × Json)) : Fields :=
  pairs.foldl (fun fields p ↦ put fields p.1 p.2) []

/-- The value of a key. -/
def get? (fields : Fields) (key : Text) : Option Json := List.lookup key fields

/-- Whether a key is there, whatever its value. -/
def has (fields : Fields) (key : Text) : Bool := (get? fields key).isSome

end Fields

mutual

/-- Whether no object in a value repeats a key. -/
def Json.Distinct : Json → Prop
  | .array items => Json.DistinctItems items
  | .object fields => (fields.map Prod.fst).Nodup ∧ Json.DistinctFields fields
  | _ => True

/-- Whether no object in a list of values repeats a key. -/
def Json.DistinctItems : List Json → Prop
  | [] => True
  | v :: vs => Json.Distinct v ∧ Json.DistinctItems vs

/-- Whether no object below the fields of an object repeats a key. -/
def Json.DistinctFields : Fields → Prop
  | [] => True
  | (_, v) :: rest => Json.Distinct v ∧ Json.DistinctFields rest

end

/-! ## Truth -/

namespace Json

/-- Whether a value counts as given: null, false, zeros and empty texts, arrays and objects do not.
-/
def isTruthy : Json → Bool
  | .null => false
  | .bool b => b
  | .int n => n ≠ 0
  | .float x => !x.isZero
  | .string s => s ≠ ""
  | .array items => !items.isEmpty
  | .object fields => !fields.isEmpty

/-- The value itself if it counts as given, else the other one. -/
def orElse (v w : Json) : Json := if v.isTruthy then v else w

/-- The fields of an object. -/
def fields? : Json → Option Fields
  | .object fields => some fields
  | _ => none

/-- The value of a key of an object; anything else has no keys. -/
def get? (v : Json) (key : Text) : Option Json :=
  match v with
  | .object fields => Fields.get? fields key
  | _ => none

end Json

mutual

/-- The value with every number that is infinite or NaN replaced by null. -/
def Json.finite : Json → Json
  | .float x => if x.isFinite then .float x else .null
  | .array items => .array (Json.finiteItems items)
  | .object fields => .object (Json.finiteFields fields)
  | v => v

/-- The values with every number that is infinite or NaN replaced by null. -/
def Json.finiteItems : List Json → List Json
  | [] => []
  | v :: vs => Json.finite v :: Json.finiteItems vs

/-- The fields with every number that is infinite or NaN replaced by null. -/
def Json.finiteFields : Fields → Fields
  | [] => []
  | (k, v) :: rest => (k, Json.finite v) :: Json.finiteFields rest

end

end AgentFlow
