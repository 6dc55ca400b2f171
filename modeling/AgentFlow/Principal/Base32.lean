/-!
# Base32

Bytes as text in the alphabet of RFC 4648, by way of their bits: writing cuts the bits into groups
of five and fills the last group with zeros, reading cuts them into bytes and drops what is left
over. Reading pads the text with `=` to a whole number of eight characters and takes any case;
characters outside ASCII count as their upper case, where that is ASCII.
-/

namespace AgentFlow

namespace Base32

/-! ## Bits -/

/-- The last `width` bits of a number, the highest first. -/
def bits (width n : Nat) : List Bool := ((List.range width).map fun i ↦ n.testBit i).reverse

/-- The number that a run of bits writes. -/
def ofBits (bs : List Bool) : Nat := bs.foldl (fun n b ↦ 2 * n + b.toNat) 0

/-- Cuts bits into groups of five, the last one filled with zeros. -/
def groupsOfFive : List Bool → List Nat
  | a :: b :: c :: d :: e :: rest => ofBits [a, b, c, d, e] :: groupsOfFive rest
  | [] => []
  | [a] => [ofBits [a, false, false, false, false]]
  | [a, b] => [ofBits [a, b, false, false, false]]
  | [a, b, c] => [ofBits [a, b, c, false, false]]
  | [a, b, c, d] => [ofBits [a, b, c, d, false]]

/-- Cuts bits into whole bytes and drops the rest. -/
def wholeBytes : List Bool → List UInt8
  | a :: b :: c :: d :: e :: f :: g :: h :: rest =>
    UInt8.ofNat (ofBits [a, b, c, d, e, f, g, h]) :: wholeBytes rest
  | _ => []

/-! ## Alphabet -/

/-- The digit of a value, in lower case. -/
def digit (n : Nat) : Char :=
  if n < 26 then Char.ofNat ('a'.toNat + n) else Char.ofNat ('2'.toNat + (n - 26))

/-- The value of a digit in upper case. -/
def value? (c : Char) : Option Nat :=
  if 'A' ≤ c ∧ c ≤ 'Z' then some (c.toNat - 'A'.toNat)
  else if '2' ≤ c ∧ c ≤ '7' then some (c.toNat - '2'.toNat + 26)
  else none

/-- The characters outside ASCII whose upper case is ASCII: sharp s, dotless i, long s and the
ligatures of f and s. -/
def upperExceptions : List (Nat × List Char) :=
  [(0xDF, ['S', 'S']), (0x131, ['I']), (0x17F, ['S']), (0xFB00, ['F', 'F']), (0xFB01, ['F', 'I']),
   (0xFB02, ['F', 'L']), (0xFB03, ['F', 'F', 'I']), (0xFB04, ['F', 'F', 'L']),
   (0xFB05, ['S', 'T']), (0xFB06, ['S', 'T'])]

/-- The upper case of a character, if it is ASCII. -/
def upper? (c : Char) : Option (List Char) :=
  if c.toNat < 0x80 then
    some [if 'a' ≤ c ∧ c ≤ 'z' then Char.ofNat (c.toNat - 32) else c]
  else List.lookup c.toNat upperExceptions

/-! ## Texts -/

/-- The text of a run of bytes, without padding. -/
def encode (bytes : List UInt8) : List Char :=
  (groupsOfFive (bytes.flatMap fun b ↦ bits 8 b.toNat)).map digit

/-- The number of padding characters that a text of this length lacks. -/
def padding (length : Nat) : Nat := (8 - length % 8) % 8

/-- The bytes of a text, with padding added; refuses characters outside the alphabet, padding that
is not at the end, and padding that no number of bytes leaves. -/
def decode? (cs : List Char) : Option (List UInt8) := do
  let upper ← cs.mapM upper?
  let padded := upper.flatten ++ List.replicate (padding cs.length) '='
  let body := (padded.reverse.dropWhile (· = '=')).reverse
  if padded.length % 8 ≠ 0 ∨ padded.length - body.length ∉ [0, 1, 3, 4, 6] then none
  else
    let values ← body.mapM value?
    some (wholeBytes (values.flatMap (bits 5)))

end Base32

end AgentFlow
