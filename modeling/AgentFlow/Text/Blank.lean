import AgentFlow.Text.Basic

/-!
# Blanks and trimming

Two sets of blanks are in use. `isSpace` is the Unicode property White_Space; it trims numbers that
are given as text. `isBlank` adds the four information separators; it trims names, terms and
environment values and decides whether a text is blank.
-/

namespace AgentFlow

/-- Whether a code point has the property White_Space. -/
def isSpace (c : CodePoint) : Bool :=
  let n := c.toNat
  (0x09 ≤ n && n ≤ 0x0D) || n == 0x20 || n == 0x85 || n == 0xA0 || n == 0x1680
    || (0x2000 ≤ n && n ≤ 0x200A) || n == 0x2028 || n == 0x2029 || n == 0x202F || n == 0x205F
    || n == 0x3000

/-- Whether a code point is white space or one of the separators U+001C to U+001F. -/
def isBlank (c : CodePoint) : Bool := isSpace c || (0x1C ≤ c.toNat && c.toNat ≤ 0x1F)

/-- Drops what is in a class from both ends. -/
def trimBy {α : Type} (p : α → Bool) (xs : List α) : List α :=
  ((xs.dropWhile p).reverse.dropWhile p).reverse

/-- A run of characters without white space at its ends. -/
def trimChars (cs : List Char) : List Char := trimBy (fun c ↦ isSpace (.char c)) cs

/-- The text without blanks at its ends. -/
def strip (t : Text) : Text := trimBy isBlank t

/-- Whether a text holds nothing but blanks. -/
def isBlankText (t : Text) : Bool := t.all isBlank

/-- Whether one text stands somewhere in another. -/
def occursIn (needle : Text) : Text → Bool
  | [] => needle.isEmpty
  | c :: t => needle.isPrefixOf (c :: t) || occursIn needle t

end AgentFlow
