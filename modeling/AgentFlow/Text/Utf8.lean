import AgentFlow.Text.Quoted

/-!
# UTF-8

Files hold UTF-8. A lead byte fixes the number of bytes of a character and the range of each byte
behind it (`Utf8.tailRanges?`); decoding stops at the first byte that rules the text out and tells
what stands there. Encoding fails only on halves of surrogate pairs, and tells the first run of
them.

The name of a file is UTF-8 too, but it may hold bytes that are no text. In a text such a byte is
the half of a surrogate pair that ends in it, and is encoded as the byte alone. So a name may be the
bytes of two texts: the halves of two bytes can stand for the character that these encode.
-/

namespace AgentFlow

namespace Utf8

/-! ## Decoding -/

/-- Why bytes are no text. -/
inductive Reason where
  /-- No character starts with the byte. -/
  | badStart
  /-- A byte stands where another one is expected in the middle of a character. -/
  | badTail
  /-- The bytes end in the middle of a character. -/
  | endOfData
  deriving DecidableEq

/-- The wording of a reason. -/
def Reason.text : Reason → String
  | .badStart => "invalid start byte"
  | .badTail => "invalid continuation byte"
  | .endOfData => "unexpected end of data"

/-- The bytes that are no text. -/
structure DecodeFault where
  /-- The place of the first of them. -/
  start : Nat
  /-- Their number. -/
  width : Nat
  /-- The first of them. -/
  lead : Nat
  /-- Why they are none. -/
  reason : Reason
  deriving DecidableEq

/-- A run of places, from the first to the last. -/
def placesText (one many : String) (start width : Nat) : String :=
  if width = 1 then one ++ " in position " ++ toString start
  else many ++ " in position " ++ toString start ++ "-" ++ toString (start + width - 1)

/-- The wording of a fault. -/
def DecodeFault.message (e : DecodeFault) : String :=
  "'utf-8' codec can't decode "
    ++ placesText ("byte 0x" ++ String.ofList (hexDigits 2 e.lead)) "bytes" e.start e.width
    ++ ": " ++ e.reason.text

/-- The ranges of the bytes that follow a lead byte. -/
def tailRanges? (lead : Nat) : Option (List CodeRange) :=
  let any : CodeRange := (0x80, 0xBF)
  if lead < 0x80 then some []
  else if lead < 0xC2 then none
  else if lead < 0xE0 then some [any]
  else if lead = 0xE0 then some [(0xA0, 0xBF), any]
  else if lead = 0xED then some [(0x80, 0x9F), any]
  else if lead < 0xF0 then some [any, any]
  else if lead = 0xF0 then some [(0x90, 0xBF), any, any]
  else if lead < 0xF4 then some [any, any, any]
  else if lead = 0xF4 then some [(0x80, 0x8F), any, any]
  else none

/-- The bits of a lead byte that belong to the number of its character. -/
def leadBits (lead tail : Nat) : Nat :=
  if tail = 0 then lead else lead % Nat.pow 2 (6 - tail)

/-- Reads the bytes behind a lead byte onto the bits that are there; a fault tells how many of them
could be read. -/
def readTail : Nat → Nat → List CodeRange → List Nat → Except (Nat × Reason) (Nat × List Nat)
  | bits, _, [], bytes => .ok (bits, bytes)
  | _, done, _ :: _, [] => .error (done, .endOfData)
  | bits, done, range :: ranges, b :: bytes =>
    if inRanges [range] b then readTail (bits * 0x40 + b % 0x40) (done + 1) ranges bytes
    else .error (done, .badTail)

/-- Reads the character at the head of bytes that stand at a place. -/
def readChar (start lead : Nat) (bytes : List Nat) : Except DecodeFault (Char × List Nat) :=
  match tailRanges? lead with
  | none => .error ⟨start, 1, lead, .badStart⟩
  | some ranges =>
    match readTail (leadBits lead ranges.length) 1 ranges bytes with
    | .ok (n, rest) => .ok (Char.ofNat n, rest)
    | .error (width, reason) => .error ⟨start, width, lead, reason⟩

/-- Reads at most `fuel` characters of bytes that stand at a place. -/
def readChars : Nat → Nat → List Nat → Except DecodeFault (List Char)
  | _, _, [] => .ok []
  | 0, _, _ => .ok []
  | fuel + 1, start, lead :: bytes => do
    let (c, rest) ← readChar start lead bytes
    let cs ← readChars fuel (start + 1 + (bytes.length - rest.length)) rest
    .ok (c :: cs)

/-- The text that bytes hold. -/
def decode (bytes : List UInt8) : Except DecodeFault Text :=
  (readChars bytes.length 0 (bytes.map UInt8.toNat)).map Text.ofChars

/-! ## Encoding -/

/-- The first run of halves in a text. -/
structure EncodeFault where
  /-- The place of the first of them. -/
  start : Nat
  /-- Their number. -/
  width : Nat
  /-- The code point of the first of them. -/
  code : Nat
  deriving DecidableEq

/-- The wording of a fault. -/
def EncodeFault.message (e : EncodeFault) : String :=
  "'utf-8' codec can't encode "
    ++ placesText ("character '\\u" ++ String.ofList (hexDigits 4 e.code) ++ "'") "characters"
      e.start e.width
    ++ ": surrogates not allowed"

/-- The first code point of a class in a text, with the run of halves that it starts. -/
def firstFault? (bad : CodePoint → Bool) (t : Text) : Option EncodeFault :=
  let clean := t.takeWhile fun c ↦ !bad c
  match t.dropWhile fun c ↦ !bad c with
  | [] => none
  | c :: rest => some ⟨clean.length, (rest.takeWhile CodePoint.isHalf).length + 1, c.toNat⟩

/-- What keeps a text from being encoded. -/
def encodeFault? (t : Text) : Option EncodeFault := firstFault? CodePoint.isHalf t

/-! ## Names of files -/

/-- The byte that a half stands for in the name of a file. -/
def escapedByte? (place : Fin 0x800) : Option UInt8 :=
  if 0x480 ≤ place.val ∧ place.val < 0x500 then some (UInt8.ofNat (place - 0x400)) else none

/-- Whether a code point is a half that stands for no byte. -/
def isUnnamable : CodePoint → Bool
  | .char _ => false
  | .half place => (escapedByte? place).isNone

/-- The bytes of a code point in the name of a file. -/
def nameBytes : CodePoint → List UInt8
  | .char c => String.utf8EncodeChar c
  | .half place => (escapedByte? place).toList

/-- What keeps a text from being the name of a file. -/
def nameFault? (t : Text) : Option EncodeFault := firstFault? isUnnamable t

/-- The bytes of the name of a file. -/
def encodeName (t : Text) : List UInt8 := t.flatMap nameBytes

end Utf8

end AgentFlow
