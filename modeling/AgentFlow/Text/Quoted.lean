import AgentFlow.Text.Printable

/-!
# Quoted text

How a text is shown inside a message: between single quotes, or between double quotes when it holds
a single quote and no double one. The quote, the backslash and unprintable code points are escaped,
so the quoted form is one line of printable characters.
-/

namespace AgentFlow

/-- The digit of a hexadecimal place, in lower case. -/
def hexDigit (d : Nat) : Char :=
  if d < 10 then Char.ofNat ('0'.toNat + d) else Char.ofNat ('a'.toNat + (d - 10))

/-- The last `width` hexadecimal digits of a number. -/
def hexDigits (width n : Nat) : List Char :=
  ((List.range width).map fun i ↦ hexDigit (n / Nat.pow 16 i % 16)).reverse

namespace Quoted

/-- The quote that stands around a text. -/
def quoteFor (t : Text) : Char :=
  if .char '\'' ∈ t ∧ .char '"' ∉ t then '"' else '\''

/-- A code point as an escape of two, four or eight digits. -/
def escapeCode (n : Nat) : List Char :=
  if n < 0x100 then '\\' :: 'x' :: hexDigits 2 n
  else if n < 0x10000 then '\\' :: 'u' :: hexDigits 4 n
  else '\\' :: 'U' :: hexDigits 8 n

/-- One code point as it stands between quotes. -/
def escapePoint (quote : Char) (c : CodePoint) : Text :=
  if c = quote ∨ c = '\\' then ['\\', c]
  else if c = '\t' then ['\\', 't']
  else if c = '\n' then ['\\', 'n']
  else if c = '\r' then ['\\', 'r']
  else if isPrintable c then [c]
  else Text.ofChars (escapeCode c.toNat)

end Quoted

/-- A text as it is shown inside a message. -/
def quoted (t : Text) : Text :=
  let quote := Quoted.quoteFor t
  [.char quote] ++ t.flatMap (Quoted.escapePoint quote) ++ [.char quote]

end AgentFlow
