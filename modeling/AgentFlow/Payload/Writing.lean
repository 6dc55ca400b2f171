import AgentFlow.Json.Height
import AgentFlow.Json.Printer

/-!
# What cannot be written

Records are always written; what may keep one from being written is a free value inside it: it has
too many levels, or a key that cannot be encoded. Each kind of record tells the first such fault
that is met when it is written (`writeFault?`), and whatever hands a record out asks for it first. A
text of a record, which is to be read again, also has no whole number that would be refused then
(`textFault?`).

In free values null is written for NaN and the infinities.

Where a record is taken over into another one its free values are copied, which bounds their height
too, further up.
-/

namespace AgentFlow

/-! ## Faults -/

/-- Why a record cannot be written. -/
inductive WriteFault where
  /-- A free value in it cannot be written. -/
  | free (cause : Json.Unwritable)
  /-- The value of a marker of a condition in it cannot be written. -/
  | marker (cause : Json.Unwritable)
  /-- A whole number in it has too many digits for a text. -/
  | longInteger
  /-- A free value in it has too many levels to be copied. -/
  | notCopied
  deriving DecidableEq

/-! ## Free values -/

/-- Writes a free mapping. Its own keys are written in readable characters, even where a half of a
surrogate pair stands alone; a key that comes twice then keeps its first place and its last value.
-/
def Fields.write (fields : Fields) : Json :=
  .object (Fields.ofPairs (fields.map fun f ↦ (Text.ofChars f.1.readable, f.2.finite)))

/-- The greatest height of a free value that is written. -/
def freeHeight : Nat := 255

/-- What keeps a free value from being written so many levels below a record. -/
def Json.freeFault? (v : Json) (below : Nat) : Option Json.Unwritable :=
  v.unwritable? .keys (freeHeight - below)

/-- What keeps a free value from being written. -/
def Json.writeFault? (v : Json) : Option WriteFault := (v.freeFault? 0).map .free

/-- What keeps a free mapping from being written; the mapping itself is no level, and its own keys
can always be written. -/
def Fields.writeFault? (fields : Fields) : Option WriteFault :=
  fields.findSome? fun f ↦ f.2.writeFault?

/-! ## Copies -/

/-- The greatest height of a free value that is copied. -/
def copyHeight : Nat := 490

/-- Whether a free value is copied. -/
def Json.isCopied (v : Json) : Bool := v.height ≤ copyHeight

/-- What keeps records from being handed out where they are copied first. -/
def copyFault? (copied : Bool) : Option WriteFault := if copied then none else some .notCopied

theorem copyFault?_eq_none_iff {copied : Bool} : copyFault? copied = none ↔ copied := by
  cases copied <;> simp [copyFault?]

/-! ## Texts -/

/-- What keeps a record with this form from being written as a text. -/
def textFault? (fault? : Option WriteFault) (v : Json) : Option WriteFault :=
  fault?.or (if v.hasLongInteger then some .longInteger else none)

/-- The text of a record for a file. -/
def fileText (fault? : Option WriteFault) (v : Json) : Except WriteFault Text :=
  match textFault? fault? v with
  | some fault => .error fault
  | none => .ok v.pretty

end AgentFlow
