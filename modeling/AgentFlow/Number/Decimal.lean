import AgentFlow.Number.Binary64

/-!
# Decimal texts of numbers

Writing a binary64 number takes two steps: choose the digits, then lay them out. The digits are the
fewest that read back as the number and, of those, the nearest to it; candidates are tried by
reading them, so what is written always reads back. Layout is positional for decimal exponents from
`-4` to `15` and scientific outside, and a number always shows a point or an exponent.

Reading takes an optional sign and either a decimal with optional fraction and exponent or a name
for infinity or NaN.
-/

namespace AgentFlow

/-! ## Digits -/

/-- The decimal digits of a number, most significant first; zero is one digit. -/
def decimalDigits (n : Nat) : List Char := Nat.toDigits 10 n

/-- The text of a whole number. -/
def intDigits (n : Int) : List Char :=
  if n < 0 then '-' :: decimalDigits n.natAbs else decimalDigits n.natAbs

/-- The value of an ASCII digit. -/
def digitValue? (c : Char) : Option Nat :=
  if '0' ≤ c ∧ c ≤ '9' then some (c.toNat - '0'.toNat) else none

/-- Whether a character is an ASCII digit. -/
def isAsciiDigit (c : Char) : Bool := (digitValue? c).isSome

/-- The number that a run of digits writes; other characters count as zero. -/
def digitsValue (cs : List Char) : Nat :=
  cs.foldl (fun n c ↦ 10 * n + (digitValue? c).getD 0) 0

/-- The greatest number of digits of a whole number in a text from outside. -/
def maxDigits : Nat := 4300

/-! ## Shortest digits -/

/-- A positive decimal: `digits · 10 ^ exponent`. -/
structure Decimal where
  /-- The significant digits, as a number. -/
  digits : Nat
  /-- The power of ten. -/
  exponent : Int
  deriving DecidableEq

namespace Decimal

/-- The numerator and denominator of a magnitude measured in steps of `10 ^ g`. -/
def scaled (units : Nat) (g : Int) : Nat × Nat :=
  if 0 ≤ g then (units, Binary64.unitsOfOne * Nat.pow 10 g.toNat)
  else (units * Nat.pow 10 (-g).toNat, Binary64.unitsOfOne)

/-- The decimal exponent of the leading digit of a magnitude, from its length in bits: the logarithm
of two is taken to five places, and one comparison settles the last step. -/
def leadingExponent (units : Nat) : Int :=
  let guess := Int.fdiv (((units.log2 : Int) - 1074) * 30103) 100000
  let (n, d) := scaled units (guess + 1)
  if d ≤ n then guess + 1 else guess

/-- The candidate with `count` digits that reads back as rank `r`, if there is one: of the two
neighbours on that grid the nearer that does, and of two equally near the even one. -/
def candidate? (r : Nat) (count : Nat) : Option Decimal :=
  let magnitude := Binary64.units r
  let g := leadingExponent magnitude - (count - 1 : Nat)
  let (n, d) := scaled magnitude g
  let lower := n / d
  let rest := n % d
  let reads (m : Nat) : Bool := Binary64.ofDecimal false m g = Binary64.ofRank false r
  let preferLower := 2 * rest < d || (2 * rest = d && lower % 2 = 0)
  let order := if preferLower then [lower, lower + 1] else [lower + 1, lower]
  (order.find? reads).map fun m ↦ ⟨m, g⟩

/-- The decimal that is exactly the magnitude of rank `r`. -/
def exact (r : Nat) : Decimal := ⟨Binary64.units r * Nat.pow 5 1074, -1074⟩

/-- The shortest decimal that reads back as rank `r`; seventeen digits always suffice. -/
def shortest (r : Nat) : Decimal :=
  ((List.range 17).findSome? fun i ↦ candidate? r (i + 1)).getD (exact r)

/-- The digits of a decimal without closing zeros, and the exponent of its leading digit. -/
def leading (x : Decimal) : List Char × Int :=
  let ds := decimalDigits x.digits
  ((ds.reverse.dropWhile (· = '0')).reverse, x.exponent + ds.length - 1)

/-! ## Layout -/

/-- The exponent part: a sign always, and two digits at least. -/
def exponentText (e : Int) : List Char :=
  let ds := decimalDigits e.natAbs
  'e' :: (if e < 0 then '-' else '+') :: (if ds.length < 2 then '0' :: ds else ds)

/-- Lays digits out behind a leading exponent. -/
def layout (ds : List Char) (e : Int) : List Char :=
  if e < -4 ∨ 16 ≤ e then
    match ds with
    | [] => ['0']
    | [d] => d :: exponentText e
    | d :: rest => d :: '.' :: rest ++ exponentText e
  else if e < 0 then
    '0' :: '.' :: List.replicate ((-e).toNat - 1) '0' ++ ds
  else
    let whole := e.toNat + 1
    let padded := ds ++ List.replicate (whole - ds.length) '0'
    let fraction := padded.drop whole
    padded.take whole ++ '.' :: (if fraction.isEmpty then ['0'] else fraction)

/-- The text of a positive decimal. -/
def text (x : Decimal) : List Char :=
  let (ds, e) := x.leading
  layout ds e

end Decimal

namespace Binary64

/-- The text of the magnitude of rank `r`. -/
def magnitudeText (r : Nat) : List Char :=
  if r = 0 then ['0', '.', '0'] else (Decimal.shortest r).text

/-- The text of a finite number. -/
def finiteText (negative : Bool) (r : Nat) : List Char :=
  if negative then '-' :: magnitudeText r else magnitudeText r

/-- The text of a number, as it stands in messages. -/
def text : Binary64 → String
  | .nan => "nan"
  | .infinity negative => if negative then "-inf" else "inf"
  | .finite negative r => String.ofList (finiteText negative r)

end Binary64

/-! ## Reading -/

/-- Splits off an optional sign; true means minus. -/
def splitSign : List Char → Bool × List Char
  | '-' :: cs => (true, cs)
  | '+' :: cs => (false, cs)
  | cs => (false, cs)

/-- Reads an exponent part that takes up the whole text: nothing, or `e`, an optional sign and at
least one digit. -/
def readExponent? : List Char → Option Int
  | [] => some 0
  | c :: cs =>
    if c = 'e' ∨ c = 'E' then
      let (negative, ds) := splitSign cs
      if ds.isEmpty ∨ !ds.all isAsciiDigit then none
      else some (if negative then -(digitsValue ds : Int) else digitsValue ds)
    else none

/-- Reads an unsigned decimal that takes up the whole text: digits, a point and digits of which one
part may be empty, an exponent. -/
def readDecimal? (cs : List Char) : Option Decimal :=
  let whole := cs.takeWhile isAsciiDigit
  let rest := cs.dropWhile isAsciiDigit
  let (fraction, tail) := match rest with
    | '.' :: more => (more.takeWhile isAsciiDigit, more.dropWhile isAsciiDigit)
    | _ => ([], rest)
  if whole.isEmpty ∧ fraction.isEmpty then none
  else (readExponent? tail).map fun e ↦ ⟨digitsValue (whole ++ fraction), e - fraction.length⟩

/-- The lower case of an ASCII letter; other characters stay. -/
def asciiLower (c : Char) : Char :=
  if 'A' ≤ c ∧ c ≤ 'Z' then Char.ofNat (c.toNat + 32) else c

/-- Reads a number that takes up the whole text. -/
def readBinary64? (cs : List Char) : Option Binary64 :=
  let (negative, body) := splitSign cs
  let name := String.ofList (body.map asciiLower)
  if name = "inf" ∨ name = "infinity" then some (.infinity negative)
  else if name = "nan" then some .nan
  else (readDecimal? body).map fun x ↦ Binary64.ofDecimal negative x.digits x.exponent

end AgentFlow
