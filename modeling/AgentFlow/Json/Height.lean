import AgentFlow.Json.Basic
import AgentFlow.Number.Decimal
import AgentFlow.Text.Utf8

/-!
# The height of a value

What bounds how a value can be written: how many levels of arrays and objects it has, the first
level too many or text that cannot be encoded, and whether some whole number has too many digits.
-/

namespace AgentFlow

mutual

/-- The number of levels of a value; a value without values below it has one. -/
def Json.height : Json → Nat
  | .array items => Json.heightItems items + 1
  | .object fields => Json.heightFields fields + 1
  | _ => 1

/-- The greatest height of some values. -/
def Json.heightItems : List Json → Nat
  | [] => 0
  | v :: vs => max (Json.height v) (Json.heightItems vs)

/-- The greatest height below some fields. -/
def Json.heightFields : Fields → Nat
  | [] => 0
  | (_, v) :: rest => max (Json.height v) (Json.heightFields rest)

end

/-- Why a value cannot be written. -/
inductive Json.Unwritable where
  /-- It has too many levels. -/
  | tooHigh
  /-- A key or a text cannot be encoded. -/
  | unencodable (cause : Utf8.EncodeFault)
  deriving DecidableEq

/-- The wording of a fault. -/
def Json.Unwritable.message : Json.Unwritable → String
  | .tooHigh => "Maximum serialization depth exceeded"
  | .unencodable cause => cause.message

/-- Which parts of a value are encoded when it is written. -/
inductive Json.Encoded where
  /-- The keys of objects. -/
  | keys
  /-- The keys of objects and all texts. -/
  | texts
  deriving DecidableEq

mutual

/-- What keeps a value from being written where only so many levels are left. The value is written
from the left, and the first fault that is met counts: a value below the last level, or a key or a
text that cannot be encoded. -/
def Json.unwritable? (encoded : Json.Encoded) : Nat → Json → Option Json.Unwritable
  | 0, _ => some .tooHigh
  | _ + 1, .string s =>
    if encoded = .texts then (Utf8.encodeFault? s).map .unencodable else none
  | levels + 1, .array items => Json.unwritableItems? encoded levels items
  | levels + 1, .object fields => Json.unwritableFields? encoded levels fields
  | _ + 1, _ => none

/-- The same for some values in order. -/
def Json.unwritableItems? (encoded : Json.Encoded) (levels : Nat) :
    List Json → Option Json.Unwritable
  | [] => none
  | v :: vs =>
    (Json.unwritable? encoded levels v).or (Json.unwritableItems? encoded levels vs)

/-- The same for some fields in order, each with its key first. -/
def Json.unwritableFields? (encoded : Json.Encoded) (levels : Nat) :
    Fields → Option Json.Unwritable
  | [] => none
  | (k, v) :: rest =>
    ((Utf8.encodeFault? k).map .unencodable).or
      ((Json.unwritable? encoded levels v).or (Json.unwritableFields? encoded levels rest))

end

mutual

/-- A value that can be written has no more levels than were left. -/
theorem Json.height_le_of_unwritable?_eq_none {encoded : Json.Encoded} {levels : Nat} {v : Json}
    (h : v.unwritable? encoded levels = none) : v.height ≤ levels := by
  match levels, v with
  | 0, _ => simp [Json.unwritable?] at h
  | n + 1, .array items =>
    exact Nat.succ_le_succ (Json.heightItems_le_of_unwritableItems?_eq_none h)
  | n + 1, .object fields =>
    exact Nat.succ_le_succ (Json.heightFields_le_of_unwritableFields?_eq_none h)
  | n + 1, .null | n + 1, .bool _ | n + 1, .int _ | n + 1, .float _ | n + 1, .string _ =>
    exact Nat.succ_le_succ (Nat.zero_le n)

theorem Json.heightItems_le_of_unwritableItems?_eq_none {encoded : Json.Encoded} {levels : Nat}
    {vs : List Json} (h : Json.unwritableItems? encoded levels vs = none) :
    Json.heightItems vs ≤ levels := by
  match vs with
  | [] => exact Nat.zero_le _
  | v :: rest =>
    obtain ⟨hv, hrest⟩ := Option.or_eq_none_iff.mp h
    exact Nat.max_le.mpr ⟨Json.height_le_of_unwritable?_eq_none hv,
      Json.heightItems_le_of_unwritableItems?_eq_none hrest⟩

theorem Json.heightFields_le_of_unwritableFields?_eq_none {encoded : Json.Encoded} {levels : Nat}
    {fields : Fields} (h : Json.unwritableFields? encoded levels fields = none) :
    Json.heightFields fields ≤ levels := by
  match fields with
  | [] => exact Nat.zero_le _
  | (_, v) :: rest =>
    obtain ⟨hv, hrest⟩ := Option.or_eq_none_iff.mp (Option.or_eq_none_iff.mp h).2
    exact Nat.max_le.mpr ⟨Json.height_le_of_unwritable?_eq_none hv,
      Json.heightFields_le_of_unwritableFields?_eq_none hrest⟩

end

/-- What keeps a value of any height from being written: its first key or text that cannot be
encoded. -/
def Json.unencodable? (v : Json) : Option Json.Unwritable := v.unwritable? .texts v.height

/-- The least number that has too many digits for a text. -/
def Json.longInteger : Nat := Nat.pow 10 maxDigits

mutual

/-- Whether some whole number has too many digits for a text. -/
def Json.hasLongInteger : Json → Bool
  | .int n => Json.longInteger ≤ n.natAbs
  | .array items => Json.hasLongIntegerItems items
  | .object fields => Json.hasLongIntegerFields fields
  | _ => false

/-- The same for some values. -/
def Json.hasLongIntegerItems : List Json → Bool
  | [] => false
  | v :: vs => Json.hasLongInteger v || Json.hasLongIntegerItems vs

/-- The same for some fields. -/
def Json.hasLongIntegerFields : Fields → Bool
  | [] => false
  | (_, v) :: rest => Json.hasLongInteger v || Json.hasLongIntegerFields rest

end

end AgentFlow
