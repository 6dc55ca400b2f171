import AgentFlow.Json.Basic
import AgentFlow.Number.Decimal

/-!
# Reading JSON

A strict reader: no comments, no trailing commas, no control characters in texts, nothing after the
value but the four white-space characters of the format. The names `NaN`, `Infinity` and `-Infinity`
are numbers. A number with a fraction or an exponent is a binary64 number, any other a whole number.
A key that comes twice keeps its first place and its last value. A pair of escaped surrogates is one
character; a half without the other stands alone.

Files from outside are read within `Bounds`: a whole number of too many digits is no JSON, and a
text that nests too deep is refused as soon as the bracket that is one too many is opened.

Each step consumes at least one character, so the length of the text bounds the recursion.
-/

namespace AgentFlow

namespace Json

open CodePoint (char)

/-! ## Texts -/

/-- Whether a code point may stand between tokens. -/
def isGap (c : CodePoint) : Bool := c = ' ' || c = '\t' || c = '\n' || c = '\r'

/-- The text from the next token on. -/
def skipGap (t : Text) : Text := t.dropWhile isGap

/-- The value of a hexadecimal digit of either case. -/
def hexValue? (c : Char) : Option Nat :=
  if '0' ≤ c ∧ c ≤ '9' then some (c.toNat - '0'.toNat)
  else if 'a' ≤ c ∧ c ≤ 'f' then some (c.toNat - 'a'.toNat + 10)
  else if 'A' ≤ c ∧ c ≤ 'F' then some (c.toNat - 'A'.toNat + 10)
  else none

/-- Reads the four digits of an escaped unit. -/
def readUnit? : Text → Option (Nat × Text)
  | char a :: char b :: char c :: char d :: t => do
    let a ← hexValue? a
    let b ← hexValue? b
    let c ← hexValue? c
    let d ← hexValue? d
    some (((a * 16 + b) * 16 + c) * 16 + d, t)
  | _ => none

/-- Whether a unit opens a surrogate pair. -/
def isHighSurrogate (n : Nat) : Bool := 0xD800 ≤ n && n < 0xDC00

/-- Whether a unit closes a surrogate pair. -/
def isLowSurrogate (n : Nat) : Bool := 0xDC00 ≤ n && n < 0xE000

/-- The code point of a surrogate pair. -/
def pairCode (high low : Nat) : Nat := 0x10000 + (high - 0xD800) * 0x400 + (low - 0xDC00)

/-- Reads the second half of a surrogate pair. -/
def readLow? : Text → Option (Nat × Text)
  | char '\\' :: char 'u' :: t => (readUnit? t).filter fun r ↦ isLowSurrogate r.1
  | _ => none

/-- Reads what follows the letter of a numbered escape: one unit, or a pair of surrogates. -/
def readNumbered? (t : Text) : Option (CodePoint × Text) := do
  let (n, t) ← readUnit? t
  match (if isHighSurrogate n then readLow? t else none) with
  | some (low, rest) => some (.ofNat (pairCode n low), rest)
  | none => some (.ofNat n, t)

/-- The character that a one-letter escape stands for. -/
def namedEscape? : CodePoint → Option CodePoint
  | char '"' => some (char '"')
  | char '\\' => some (char '\\')
  | char '/' => some (char '/')
  | char 'b' => some (char '\x08')
  | char 'f' => some (char '\x0C')
  | char 'n' => some (char '\n')
  | char 'r' => some (char '\r')
  | char 't' => some (char '\t')
  | _ => none

/-- Reads one code point of a text, escaped or not; the closing quote is none. -/
def readPoint? : Text → Option (CodePoint × Text)
  | char '\\' :: char 'u' :: t => readNumbered? t
  | char '\\' :: c :: t => (namedEscape? c).map fun e ↦ (e, t)
  | c :: t => if c = '"' ∨ c = '\\' ∨ c.toNat < 0x20 then none else some (c, t)
  | [] => none

/-- Reads the rest of a text behind its opening quote, through the closing one. -/
def readText? : Nat → Text → Option (Text × Text)
  | 0, _ => none
  | _ + 1, char '"' :: t => some ([], t)
  | fuel + 1, t => do
    let (c, t) ← readPoint? t
    let (text, t) ← readText? fuel t
    some (c :: text, t)

/-! ## Numbers -/

/-- Splits off the fraction of a number: a point and at least one digit. -/
def splitFraction : Text → List Char × Text
  | char '.' :: t =>
    if (Text.takeChars isAsciiDigit t).isEmpty then ([], char '.' :: t)
    else (Text.takeChars isAsciiDigit t, Text.dropChars isAsciiDigit t)
  | t => ([], t)

/-- Splits off the sign of an exponent; true means minus. -/
def splitExponentSign : Text → Bool × Text
  | char '-' :: t => (true, t)
  | char '+' :: t => (false, t)
  | t => (false, t)

/-- Splits off the exponent of a number: the letter, an optional sign and at least one digit. -/
def splitExponent : Text → Option Int × Text
  | c :: t =>
    let (negative, body) := splitExponentSign t
    let ds := Text.takeChars isAsciiDigit body
    if (c = 'e' ∨ c = 'E') ∧ !ds.isEmpty then
      (some (if negative then -(digitsValue ds : Int) else digitsValue ds),
        Text.dropChars isAsciiDigit body)
    else (none, c :: t)
  | [] => (none, [])

/-- Splits off the whole part of a number: a zero alone, or digits that start with another. -/
def splitWhole : Text → List Char × Text
  | char '0' :: t => (['0'], t)
  | t => (Text.takeChars isAsciiDigit t, Text.dropChars isAsciiDigit t)

/-- Reads a number behind its sign; a whole number has at most so many digits. -/
def readUnsigned? (digits : Nat) (negative : Bool) (t : Text) : Option (Json × Text) :=
  let (whole, t) := splitWhole t
  if whole.isEmpty then none
  else
    let (fraction, t) := splitFraction t
    let (exponent, t) := splitExponent t
    if fraction.isEmpty ∧ exponent.isNone then
      let n := digitsValue whole
      if digits < whole.length then none else some (.int (if negative then -(n : Int) else n), t)
    else
      some (.float (Binary64.ofDecimal negative (digitsValue (whole ++ fraction))
        (exponent.getD 0 - fraction.length)), t)

/-- The fixed words and the values that they name. -/
def words : List (Text × Json) :=
  [("null", .null), ("true", .bool true), ("false", .bool false), ("NaN", .float .nan),
   ("Infinity", .float (.infinity false)), ("-Infinity", .float (.infinity true))]

/-- The text behind a leading word. -/
def afterWord? : Text → Text → Option Text
  | [], t => some t
  | w :: ws, c :: t => if w = c then afterWord? ws t else none
  | _ :: _, [] => none

/-- Reads a word or a number. -/
def readAtom? (digits : Nat) (t : Text) : Option (Json × Text) :=
  match words.findSome? fun (w, v) ↦ (afterWord? w t).map fun rest ↦ (v, rest) with
  | some found => some found
  | none =>
    match t with
    | char '-' :: rest => readUnsigned? digits true rest
    | _ => readUnsigned? digits false t

/-! ## Bounds -/

/-- How much of a text is taken. -/
structure Bounds where
  /-- The greatest depth to which brackets may nest. -/
  depth : Nat
  /-- The greatest number of digits of a whole number. -/
  digits : Nat

/-- The bounds of files from outside. -/
def Bounds.outside : Bounds := ⟨990, maxDigits⟩

/-- What a bracket opens. -/
inductive Container where
  /-- A list of values. -/
  | array
  /-- Named values. -/
  | object
  deriving DecidableEq

/-- The wording for a bracket that is one too many. -/
def Container.tooDeep (c : Container) : String :=
  "maximum recursion depth exceeded while decoding a JSON "
    ++ (match c with | .array => "array" | .object => "object") ++ " from a unicode string"

/-- Why a text is refused. -/
inductive ParseFault where
  /-- It is not JSON. -/
  | malformed
  /-- It nests too deep; the bracket that is one too many opens this. -/
  | tooDeep (c : Container)
  deriving DecidableEq

/-- What was read, or that the text is not JSON. -/
def parsed : Option α → Except ParseFault α
  | some r => .ok r
  | none => .error .malformed

/-! ## Values -/

mutual

/-- Reads the value at the head of a text. The second number is the depth that is left. -/
def readValue (digits : Nat) : Nat → Nat → Text → Except ParseFault (Json × Text)
  | 0, _, _ => .error .malformed
  | fuel + 1, _, char '"' :: t => do
    let (text, t) ← parsed (readText? fuel t)
    .ok (.string text, t)
  | _ + 1, 0, char '[' :: _ => .error (.tooDeep .array)
  | fuel + 1, depth + 1, char '[' :: t =>
    match skipGap t with
    | char ']' :: t => .ok (.array [], t)
    | t => do
      let (v, t) ← readValue digits fuel depth t
      let (vs, t) ← readItems digits fuel depth (skipGap t)
      .ok (.array (v :: vs), t)
  | _ + 1, 0, char '{' :: _ => .error (.tooDeep .object)
  | fuel + 1, depth + 1, char '{' :: t =>
    match skipGap t with
    | char '}' :: t => .ok (.object [], t)
    | t => do
      let (p, t) ← readField digits fuel depth t
      let (ps, t) ← readFields digits fuel depth (skipGap t)
      .ok (.object (Fields.ofPairs (p :: ps)), t)
  | _ + 1, _, t => parsed (readAtom? digits t)

/-- Reads the items after the first, through the closing bracket. -/
def readItems (digits : Nat) : Nat → Nat → Text → Except ParseFault (List Json × Text)
  | 0, _, _ => .error .malformed
  | _ + 1, _, char ']' :: t => .ok ([], t)
  | fuel + 1, depth, char ',' :: t => do
    let (v, t) ← readValue digits fuel depth (skipGap t)
    let (vs, t) ← readItems digits fuel depth (skipGap t)
    .ok (v :: vs, t)
  | _ + 1, _, _ => .error .malformed

/-- Reads a key, a colon and a value. -/
def readField (digits : Nat) : Nat → Nat → Text → Except ParseFault ((Text × Json) × Text)
  | 0, _, _ => .error .malformed
  | fuel + 1, depth, char '"' :: t => do
    let (key, t) ← parsed (readText? fuel t)
    match skipGap t with
    | char ':' :: t =>
      let (v, t) ← readValue digits fuel depth (skipGap t)
      .ok ((key, v), t)
    | _ => .error .malformed
  | _ + 1, _, _ => .error .malformed

/-- Reads the fields after the first, through the closing brace. -/
def readFields (digits : Nat) : Nat → Nat → Text → Except ParseFault (List (Text × Json) × Text)
  | 0, _, _ => .error .malformed
  | _ + 1, _, char '}' :: t => .ok ([], t)
  | fuel + 1, depth, char ',' :: t => do
    let (p, t) ← readField digits fuel depth (skipGap t)
    let (ps, t) ← readFields digits fuel depth (skipGap t)
    .ok (p :: ps, t)
  | _ + 1, _, _ => .error .malformed

end

/-- Reads a text that is one value within bounds. -/
def parse (bounds : Bounds) (text : Text) : Except ParseFault Json := do
  let (v, rest) ← readValue bounds.digits (text.length + 1) bounds.depth (skipGap text)
  if (skipGap rest).isEmpty then .ok v else .error .malformed

/-- Reads a text that is one value of any size. -/
def parse? (text : Text) : Option Json := (parse ⟨text.length, text.length⟩ text).toOption

end Json

end AgentFlow
