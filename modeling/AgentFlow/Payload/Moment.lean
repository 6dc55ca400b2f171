import AgentFlow.Payload.Scalar

/-!
# Points in time

A point in time is given as a text or a number. A text writes a day, or a day and the time of day
with an optional zone, or a timestamp. A timestamp counts from the start of 1970: seconds, or
thousandths of them when it is too large for seconds. The calendar is followed from the year zero
to the year 9999, but its first year is one, so the year zero is refused after all.

Points in time are checked and not kept.
-/

namespace AgentFlow

namespace Moment

/-! ## The calendar -/

/-- Whether a year has a leap day. -/
def isLeapYear (year : Nat) : Bool := if year % 100 = 0 then year % 400 = 0 else year % 4 = 0

/-- The number of days of a month. -/
def daysInMonth (year month : Nat) : Nat :=
  if month = 2 then (if isLeapYear year then 29 else 28)
  else if month ∈ [4, 6, 9, 11] then 30
  else 31

/-- Checks that a year is in the calendar. -/
def checkYear (year : Nat) : Except Cause Unit :=
  if year = 0 then .error .unreadableMoment else .ok ()

/-- The seconds from 1970 back to the start of the year zero. -/
def secondsToYearZero : Int := 62167219200

/-- The seconds from 1970 back to the start of the year one. -/
def secondsToYearOne : Int := 62135596800

/-- The seconds from 1970 to the end of the year 9999. -/
def secondsToEnd : Int := 253402300800

/-- The greatest timestamp that counts seconds. -/
def maxSeconds : Nat := 20000000000

/-- Checks a timestamp; the cause is that of one which is outside the calendar that is followed. -/
def checkTimestamp (outside : Cause) (t : Int) : Except Cause Unit :=
  let seconds := if t.natAbs ≤ maxSeconds then t else Int.fdiv t 1000
  if seconds < -secondsToYearZero ∨ secondsToEnd ≤ seconds then .error outside
  else if seconds < -secondsToYearOne then .error .unreadableMoment
  else .ok ()

/-! ## Texts -/

/-- Reads a number of a fixed width. -/
def readDigits? (width : Nat) (cs : List Char) : Option (Nat × List Char) :=
  let digits := cs.take width
  if digits.length = width ∧ digits.all isAsciiDigit then some (digitsValue digits, cs.drop width)
  else none

/-- The text behind one of some marks. -/
def readMark? (marks : List Char) : List Char → Option (List Char)
  | [] => none
  | c :: cs => if c ∈ marks then some cs else none

/-- Reads a day and gives its year. -/
def readDay? (cs : List Char) : Option (Nat × List Char) := do
  let (year, cs) ← readDigits? 4 cs
  let (month, cs) ← readDigits? 2 (← readMark? ['-'] cs)
  let (day, cs) ← readDigits? 2 (← readMark? ['-'] cs)
  if 1 ≤ month ∧ month ≤ 12 ∧ 1 ≤ day ∧ day ≤ daysInMonth year month then some (year, cs)
  else none

/-- Reads a part of a time of day, which has two digits and a bound. -/
def readPart? (bound : Nat) (cs : List Char) : Option (List Char) :=
  ((readDigits? 2 cs).filter fun r ↦ r.1 < bound).map Prod.snd

/-- Reads the seconds and their fraction, both of which may be missing. -/
def readSeconds? (cs : List Char) : Option (List Char) :=
  match readMark? [':'] cs with
  | none => some cs
  | some cs => do
    let cs ← readPart? 60 cs
    match readMark? ['.', ','] cs with
    | none => some cs
    | some cs =>
      if (cs.takeWhile isAsciiDigit).isEmpty then none else some (cs.dropWhile isAsciiDigit)

/-- Reads a zone: that of the meridian, or a difference from it. -/
def readZone? (cs : List Char) : Option (List Char) :=
  match readMark? ['Z', 'z'] cs with
  | some cs => some cs
  | none => do
    let cs ← readPart? 24 (← readMark? ['+', '-', '\u2212'] cs)
    readPart? 60 ((readMark? [':'] cs).getD cs)

/-- Reads a time of day with an optional zone. -/
def readTime? (cs : List Char) : Option (List Char) := do
  let cs ← readPart? 24 cs
  let cs ← readPart? 60 (← readMark? [':'] cs)
  let cs ← readSeconds? cs
  if cs.isEmpty then some cs else readZone? cs

/-- The year of a text that is a day and a time of day. -/
def dayAndTime? (cs : List Char) : Option Nat := do
  let (year, cs) ← readDay? cs
  let cs ← readTime? (← readMark? ['T', 't', ' ', '_'] cs)
  if cs.isEmpty then some year else none

/-- The year of a text that is a day. -/
def dayAlone? (cs : List Char) : Option Nat :=
  ((readDay? cs).filter fun r ↦ r.2.isEmpty).map Prod.fst

/-- The timestamp that a text writes, without its fraction: a whole number, or a binary64 number
with a point behind its leading digits. -/
def timestamp? (cs : List Char) : Option Int :=
  let (negative, body) := splitSign cs
  let digits := body.takeWhile isAsciiDigit
  match body.dropWhile isAsciiDigit with
  | [] =>
    if digits.isEmpty then none
    else some (if negative then -(digitsValue digits : Int) else digitsValue digits)
  | c :: _ => if c = '.' then (readBinary64? cs).bind fun x ↦ x.floor.toOption else none

/-- Checks a run of characters. -/
def checkChars (cs : List Char) : Except Cause Unit :=
  match dayAndTime? cs with
  | some year => checkYear year
  | none =>
    match timestamp? cs with
    | some t => checkTimestamp .unreadableDay t
    | none =>
      match dayAlone? cs with
      | some year => checkYear year
      | none => .error .unreadableDay

/-! ## Values -/

/-- Checks a number, whose fraction does not count. -/
def checkNumber (x : Binary64) : Except Cause Unit :=
  match x.floor with
  | .ok t => checkTimestamp .unreadableMoment t
  | .error _ => .error .unreadableMoment

/-- Checks a value. -/
def check : Json → Except Cause Unit
  | .string t => t.chars?.elim (.error .unreadableDay) checkChars
  | .float x => checkNumber x
  | .int n =>
    if (Binary64.ofInt n).isFinite then checkTimestamp .unreadableMoment n else .error .notMoment
  | _ => .error .notMoment

end Moment

namespace Reading

/-- Reads a point in time. -/
def moment (v : Json) : Reading Unit :=
  match Moment.check v with
  | .ok _ => converted ()
  | .error cause => refuse cause

end Reading

end AgentFlow
