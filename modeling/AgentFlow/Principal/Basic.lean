import AgentFlow.Digest.Crc32
import AgentFlow.Digest.Sha256
import AgentFlow.Json.Display
import AgentFlow.Principal.Base32

/-!
# Principals

Canisters are named by principals. The text of a principal is the CRC-32 of its bytes followed by
the bytes, in lower-case Base32, cut by dashes into groups of five. A principal has at most
twenty-nine bytes and exactly one text: reading accepts a text only if writing the bytes gives that
text again.
-/

namespace AgentFlow

namespace Principal

/-- The greatest number of bytes of a principal. -/
def maxBytes : Nat := 29

/-! ## Writing -/

/-- The check value of a run of bytes, as four bytes. -/
def checksum (bytes : List UInt8) : List UInt8 := Sha256.bigEndian 4 (crc32 bytes).toNat

/-- Cuts a text into groups of five with dashes between them. -/
def dashed : List Char → List Char
  | a :: b :: c :: d :: e :: f :: rest => a :: b :: c :: d :: e :: '-' :: dashed (f :: rest)
  | rest => rest

/-- The characters of the text of a principal. -/
def formatChars (bytes : List UInt8) : List Char := dashed (Base32.encode (checksum bytes ++ bytes))

/-- The text of a principal. -/
def format (bytes : List UInt8) : Text := Text.ofChars (formatChars bytes)

/-! ## Reading -/

/-- Why a text is no principal. -/
inductive Fault where
  /-- There is no text. -/
  | empty
  /-- It is not Base32. -/
  | notBase32
  /-- It is too short for a checksum. -/
  | tooShort
  /-- It has more bytes than a principal may have. -/
  | tooLong
  /-- The checksum is not that of the bytes. -/
  | checksumMismatch
  /-- The bytes are sound but have another text. -/
  | notCanonical
  deriving DecidableEq

/-- The wording of a fault. -/
def Fault.reason : Fault → String
  | .empty => "empty value"
  | .notBase32 => "not base32"
  | .tooShort => "too short"
  | .tooLong => "too long"
  | .checksumMismatch => "checksum mismatch"
  | .notCanonical => "not in canonical form"

/-- The message about a value that is no principal. -/
def Fault.message (value : Json) (fault : Fault) : Text :=
  "invalid principal " ++ value.display ++ ": " ++ fault.reason

/-- Reads the text of a principal. -/
def parse (text : Text) : Except Fault (List UInt8) :=
  if text = "" then .error .empty
  else
    match (Text.chars? (text.filter (· ≠ .char '-'))).bind Base32.decode? with
    | none => .error .notBase32
    | some decoded =>
      if decoded.length < 4 then .error .tooShort
      else
        let body := decoded.drop 4
        if maxBytes < body.length then .error .tooLong
        else if checksum body ≠ decoded.take 4 then .error .checksumMismatch
        else if format body ≠ text then .error .notCanonical
        else .ok body

/-- Reads a value that should be the text of a principal; what is no text counts as empty. -/
def parseValue : Json → Except Fault (List UInt8)
  | .string text => parse text
  | _ => .error .empty

/-- Whether a text is the text of a principal. -/
def isValid (text : Text) : Bool := (parse text).isOk

end Principal

end AgentFlow
