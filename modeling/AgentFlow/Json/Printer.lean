import AgentFlow.Json.Basic
import AgentFlow.Number.Decimal
import AgentFlow.Text.Quoted

/-!
# Writing JSON

One writer with two decisions left open (`Json.Style`): whether every item stands on a line of its
own, and whether characters past the ASCII range are escaped. Exported files use `Json.pretty`, the
integrity hash uses `Json.canonical`, in which keys are also sorted at every level, so that two
values have the same canonical text exactly when they differ in the order of keys alone.
-/

namespace AgentFlow

open CodePoint (char)

/-! ## Texts -/

/-- One UTF-16 unit as an escape. -/
def escapeUnit (n : Nat) : List Char := '\\' :: 'u' :: hexDigits 4 n

/-- A code point as an escape: one unit, or two surrogates past the basic plane. -/
def escapeCode (n : Nat) : List Char :=
  if n < 0x10000 then escapeUnit n
  else escapeUnit (0xD800 + (n - 0x10000) / 0x400) ++ escapeUnit (0xDC00 + (n - 0x10000) % 0x400)

/-- One code point of a text: quotes, backslashes and control characters are always escaped, and
everything from U+007F on when only ASCII may be written. -/
def escapeJson (asciiOnly : Bool) (c : CodePoint) : Text :=
  if c = '"' then ['\\', '"']
  else if c = '\\' then ['\\', '\\']
  else if c = '\n' then ['\\', 'n']
  else if c = '\r' then ['\\', 'r']
  else if c = '\t' then ['\\', 't']
  else if c = '\x08' then ['\\', 'b']
  else if c = '\x0C' then ['\\', 'f']
  else if c.toNat < 0x20 ∨ (asciiOnly ∧ 0x7F ≤ c.toNat) then Text.ofChars (escapeCode c.toNat)
  else [c]

/-- A text between quotes. -/
def writeText (asciiOnly : Bool) (t : Text) : Text :=
  char '"' :: t.flatMap (escapeJson asciiOnly) ++ [char '"']

/-- A binary64 number; NaN and the infinities go by name. -/
def writeBinary64 : Binary64 → List Char
  | .nan => "NaN".toList
  | .infinity negative => if negative then "-Infinity".toList else "Infinity".toList
  | .finite negative r => Binary64.finiteText negative r

/-! ## Values -/

namespace Json

/-- The open decisions of the writer. -/
structure Style where
  /-- The depth of one level of indentation; without it all stands on one line. -/
  indent : Option Nat
  /-- Whether code points from U+007F on are escaped. -/
  asciiOnly : Bool

/-- What stands after an opening and before a closing bracket. -/
def Style.gap (style : Style) (depth : Nat) : Text :=
  match style.indent with
  | none => []
  | some width => char '\n' :: List.replicate (width * depth) (char ' ')

/-- What stands between two items. -/
def Style.separator (style : Style) (depth : Nat) : Text :=
  match style.indent with
  | none => [',', ' ']
  | some _ => char ',' :: style.gap depth

mutual

/-- Writes a value that stands at a depth. -/
def write (style : Style) (depth : Nat) : Json → Text
  | .null => "null"
  | .bool true => "true"
  | .bool false => "false"
  | .int n => Text.ofChars (intDigits n)
  | .float x => Text.ofChars (writeBinary64 x)
  | .string s => writeText style.asciiOnly s
  | .array [] => ['[', ']']
  | .array (v :: vs) =>
    char '[' :: style.gap (depth + 1) ++ write style (depth + 1) v
      ++ writeItems style (depth + 1) vs ++ style.gap depth ++ [char ']']
  | .object [] => ['{', '}']
  | .object ((k, v) :: rest) =>
    char '{' :: style.gap (depth + 1) ++ writeText style.asciiOnly k ++ char ':' :: char ' ' ::
      write style (depth + 1) v ++ writeFields style (depth + 1) rest ++ style.gap depth
      ++ [char '}']

/-- Writes the items after the first. -/
def writeItems (style : Style) (depth : Nat) : List Json → Text
  | [] => []
  | v :: vs => style.separator depth ++ write style depth v ++ writeItems style depth vs

/-- Writes the fields after the first. -/
def writeFields (style : Style) (depth : Nat) : Fields → Text
  | [] => []
  | (k, v) :: rest =>
    style.separator depth ++ writeText style.asciiOnly k ++ char ':' :: char ' ' ::
      write style depth v ++ writeFields style depth rest

end

/-- The text of a value. -/
def render (style : Style) (v : Json) : Text := write style 0 v

/-- The text of exported files: two spaces a level and all code points as they are. -/
def pretty (v : Json) : Text := render ⟨some 2, false⟩ v

/-- The text on one line, all code points as they are. -/
def oneLine (v : Json) : Text := render ⟨none, false⟩ v

/-- The text on one line, in ASCII characters alone. -/
def asciiLine (v : Json) : String := String.ofList (render ⟨none, true⟩ v).readable

/-! ## Sorted keys -/

/-- Puts a field in front of the first whose key is not smaller. -/
def insertSorted (key : Text) (v : Json) : Fields → Fields
  | [] => [(key, v)]
  | (k, w) :: rest =>
    if key ≤ k then (key, v) :: (k, w) :: rest else (k, w) :: insertSorted key v rest

mutual

/-- The value with the keys of every object in ascending order of code points. -/
def sortKeys : Json → Json
  | .array items => .array (sortKeysItems items)
  | .object fields => .object (sortKeysFields fields)
  | v => v

/-- The values with sorted keys. -/
def sortKeysItems : List Json → List Json
  | [] => []
  | v :: vs => sortKeys v :: sortKeysItems vs

/-- The fields in ascending order of keys, with sorted keys below. -/
def sortKeysFields : Fields → Fields
  | [] => []
  | (k, v) :: rest => insertSorted k (sortKeys v) (sortKeysFields rest)

end

/-- The one ASCII text that stands for a value up to the order of keys. -/
def canonical (v : Json) : String := v.sortKeys.asciiLine

end Json

end AgentFlow
