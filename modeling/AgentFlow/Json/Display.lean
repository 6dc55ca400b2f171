import AgentFlow.Json.Basic
import AgentFlow.Number.Decimal
import AgentFlow.Text.Quoted

/-!
# Values in messages

How a value is shown inside a message: texts quoted, whole numbers in digits, `None`, `True` and
`False` for the three words, lists in square brackets and objects in braces.
-/

namespace AgentFlow

namespace Json

mutual

/-- A value as it is shown inside a message. -/
def display : Json → Text
  | .null => "None"
  | .bool true => "True"
  | .bool false => "False"
  | .int n => Text.ofChars (intDigits n)
  | .float x => x.text
  | .string s => quoted s
  | .array [] => "[]"
  | .array (v :: vs) => "[" ++ display v ++ displayItems vs ++ "]"
  | .object [] => "\x7b\x7d"
  | .object ((k, v) :: rest) =>
    "\x7b" ++ quoted k ++ ": " ++ display v ++ displayFields rest ++ "\x7d"

/-- The items after the first. -/
def displayItems : List Json → Text
  | [] => []
  | v :: vs => ", " ++ display v ++ displayItems vs

/-- The fields after the first. -/
def displayFields : Fields → Text
  | [] => []
  | (k, v) :: rest => ", " ++ quoted k ++ ": " ++ display v ++ displayFields rest

end

/-- A value as plain text: a text stands for itself, all else as it is shown. -/
def plainText : Json → Text
  | .string s => s
  | v => v.display

end Json

end AgentFlow
