import AgentFlow.Number.Decimal
import AgentFlow.Payload.Reading
import AgentFlow.Text.Blank

/-!
# Reading scalars

The safe conversions. Texts are never made from anything else; truth values come from 0, 1 and the
usual words; whole numbers come from numbers without a fraction and from texts that write one;
numbers come from whole numbers within range, truth values and texts.
-/

namespace AgentFlow

namespace Reading

/-! ## Texts and free values -/

/-- Reads a text. -/
def text : Json → Reading Text
  | .string s => exactly s
  | _ => refuse .notText

/-- Accepts any value as it is. -/
def anything (v : Json) : Reading Json := exactly v

/-- Reads an object as a free mapping. -/
def mapping : Json → Reading Fields
  | .object fields => exactly fields
  | _ => refuse .notMapping

/-- Reads null. -/
def null : Json → Reading Unit
  | .null => exactly ()
  | _ => refuse .notNull

/-- Reads one of a choice of names. -/
def choice (ofName? : Text → Option α) (cause : Cause) : Json → Reading α
  | .string s =>
    match ofName? s with
    | some a => exactly a
    | none => refuse cause
  | _ => refuse cause

/-! ## Truth values -/

/-- The truth value that a word names, in any case of letters. -/
def flagWord? (t : Text) : Option Bool := do
  let word := String.ofList ((← t.chars?).map asciiLower)
  if word ∈ ["0", "f", "n", "no", "off", "false"] then some false
  else if word ∈ ["1", "t", "y", "yes", "on", "true"] then some true
  else none

/-- The truth value that a whole number stands for. -/
def flagNumber (n : Int) : Reading Bool :=
  if n = 0 then converted false else if n = 1 then converted true else refuse .unreadableFlag

/-- The first whole number past the signed words of 64 bits. -/
def wordEnd : Int := 9223372036854775808

/-- Whether a whole number fits a signed word of 64 bits. -/
def fitsWord (n : Int) : Bool := -wordEnd ≤ n && n < wordEnd

/-- Whether a number without a fraction is taken for a whole one: it fits a signed word, and is not
the least of them. -/
def fitsWhole (n : Int) : Bool := fitsWord n && n ≠ -wordEnd

/-- Reads a truth value. -/
def flag : Json → Reading Bool
  | .bool b => exactly b
  | .int n => if fitsWord n then flagNumber n else refuse .notFlag
  | .float x =>
    match x.toInt? with
    | some n => if fitsWhole n then flagNumber n else refuse .notFlag
    | none => refuse .notFlag
  | .string s =>
    match flagWord? s with
    | some b => converted b
    | none => refuse .unreadableFlag
  | _ => refuse .notFlag

/-! ## Whole numbers -/

/-- Drops underscores that stand alone between other characters; refuses any other underscore. -/
def dropUnderscores? : List Char → Option (List Char)
  | [] => some []
  | '_' :: _ => none
  | [_, '_'] => none
  | c :: '_' :: cs => (dropUnderscores? cs).map (c :: ·)
  | c :: cs => (dropUnderscores? cs).map (c :: ·)

/-- The number behind a leading zero and all zeros and underscores that follow it, of which the last
stands when no digit comes next. -/
def afterZeros? (last : Char) : List Char → Option (List Char)
  | [] => some [last]
  | c :: cs =>
    if c = '0' ∨ c = '_' then afterZeros? c cs
    else if c = '.' then some (last :: c :: cs)
    else if c = '-' ∨ isAsciiDigit c then some (c :: cs)
    else none

/-- The number without leading zeros; a sign may stand behind them, or in their place. -/
def dropZeros? : List Char → Option (List Char)
  | [] => none
  | c :: cs =>
    if c = '0' then afterZeros? c cs
    else if c = '-' ∨ isAsciiDigit c then some (c :: cs)
    else none

/-- The number without a fraction of zeros. -/
def dropFraction (cs : List Char) : List Char :=
  let whole := cs.takeWhile (· ≠ '.')
  let zeros := (cs.dropWhile (· ≠ '.')).drop 1
  if !zeros.isEmpty ∧ zeros.all (· = '0') then whole else cs

/-- The number behind a sign in digits alone: without leading zeros, a fraction of zeros, and the
underscores between digits if all of them stand so. -/
def unsignedDigits? (cs : List Char) : Option (List Char) :=
  (dropZeros? cs).map fun body ↦
    let whole := dropFraction body
    (dropUnderscores? whole).getD whole

/-- The number in digits alone behind a minus at most. -/
def plainInteger? : List Char → Option (List Char)
  | '+' :: '-' :: _ => none
  | '+' :: cs => unsignedDigits? cs
  | '-' :: cs => (unsignedDigits? cs).map ('-' :: ·)
  | cs => unsignedDigits? cs

/-- Reads a whole number in digits alone, without leading zeros. Too many digits are found before
what may follow them, and a minus sign is not counted as one. -/
def readInteger (cs : List Char) : Except Cause Int :=
  let negative := cs.head? = some '-'
  let body := if negative then cs.drop 1 else cs
  let digits := body.takeWhile isAsciiDigit
  let leadsZero := digits.head? = some '0' && 1 < digits.length
  if maxDigits < digits.length ∧ !leadsZero then .error .integerTooLarge
  else if digits.isEmpty ∨ leadsZero ∨ digits.length < body.length then .error .unreadableInteger
  else .ok (if negative then -(digitsValue digits : Int) else digitsValue digits)

/-- The whole number that a run of characters writes: as it stands, or else without the blanks at
its ends and in digits alone. Only as it stands does it have too many digits to be read. -/
def integerOf (cs : List Char) : Except Cause Int :=
  match readInteger cs with
  | .ok n => .ok n
  | .error .integerTooLarge => .error .integerTooLarge
  | .error _ =>
    ((plainInteger? (trimChars cs)).bind fun plain ↦ (readInteger plain).toOption).elim
      (.error .unreadableInteger) .ok

/-- The whole number that a text writes. -/
def integerText (t : Text) : Except Cause Int := t.chars?.elim (.error .unreadableInteger) integerOf

/-- Reads a whole number. -/
def integer : Json → Reading Int
  | .int n => exactly n
  | .bool b => converted (if b then 1 else 0)
  | .float x =>
    if x.isFinite then
      match x.toInt? with
      | some n => if fitsWhole n then converted n else refuse .integerTooLarge
      | none => refuse .fractional
    else refuse .notFinite
  | .string s =>
    match integerText s with
    | .ok n => converted n
    | .error cause => refuse cause
  | _ => refuse .notInteger

/-- Reads a whole number that is not negative. -/
def natural (v : Json) : Reading Nat :=
  match integer v with
  | .ok a => if a.value < 0 then refuse .negative else .ok ⟨a.value.toNat, [], a.weight, a.exact⟩
  | .error faults => .error faults

/-! ## Numbers -/

/-- The number that a text writes: with blanks at its ends, or with single underscores between other
characters, but not both. -/
def numberText? (t : Text) : Option Binary64 := do
  let cs ← t.chars?
  (readBinary64? (trimChars cs)).or ((dropUnderscores? cs).bind readBinary64?)

/-- Reads a binary64 number. -/
def number : Json → Reading Binary64
  | .float x => exactly x
  | .int n =>
    let x := Binary64.ofInt n
    if x.isFinite then converted x else refuse .notNumber
  | .bool b => converted (Binary64.ofInt (if b then 1 else 0))
  | .string s =>
    match numberText? s with
    | some x => converted x
    | none => refuse .unreadableNumber
  | _ => refuse .notNumber

/-- Reads a binary64 number that is not negative. -/
def nonneg (v : Json) : Reading Binary64 :=
  match number v with
  | .ok a => if a.value.isNonneg then .ok a else refuse .negative
  | .error faults => .error faults

end Reading

end AgentFlow
