/-!
# Binary64 numbers

The numbers of the IEEE binary64 format, without a machine word: a finite magnitude is known by its
*rank* among the non-negative finite values in increasing order, which is also its bit pattern with
the sign left out. Every magnitude is a whole number of units of `2⁻¹⁰⁷⁴`, so values, comparisons
and arithmetic are exact natural-number arithmetic followed by one rounding, `nearestRank`.

There is one quiet NaN; payloads are not kept, since no text of a number shows them.
-/

namespace AgentFlow

/-! ## The type -/

/-- The number of fractions of an exponent. -/
def fractionCount : Nat := Nat.pow 2 52

/-- The number of finite magnitudes: 2047 exponents with all their fractions. -/
def magnitudeCount : Nat := 2047 * fractionCount

/-- A binary64 number. -/
inductive Binary64 where
  /-- The result of an operation that has none. -/
  | nan
  /-- An infinity. -/
  | infinity (negative : Bool)
  /-- A finite number by sign and rank; zero has both signs. -/
  | finite (negative : Bool) (rank : Fin magnitudeCount)
  deriving DecidableEq

namespace Binary64

/-- The number of units in one. -/
def unitsOfOne : Nat := Nat.pow 2 1074

/-- The magnitude of rank `r`, counted in units of `2⁻¹⁰⁷⁴`. -/
def units (r : Nat) : Nat :=
  if r < fractionCount then r
  else (fractionCount + r % fractionCount) * Nat.pow 2 (r / fractionCount - 1)

/-- The number with this sign and rank; ranks past the last finite one stand for infinity. -/
def ofRank (negative : Bool) (r : Nat) : Binary64 :=
  if h : r < magnitudeCount then .finite negative ⟨r, h⟩ else .infinity negative

/-- Positive zero. -/
def zero : Binary64 := ofRank false 0

instance : Inhabited Binary64 := ⟨zero⟩

@[simp] theorem ofRank_val (negative : Bool) (r : Fin magnitudeCount) :
    ofRank negative r.val = .finite negative r := by
  simp [ofRank]

/-! ## Rounding -/

/-- The whole number nearest to `n / d`, halves going to the even neighbour. -/
def divHalfEven (n d : Nat) : Nat :=
  let q := n / d
  let r := n % d
  if 2 * r < d then q else if d < 2 * r then q + 1 else q + q % 2

/-- The rank of the magnitude nearest to `n / d` units, halves going to the even rank. The quotient
is cut to 53 bits; a carry out of them lands on the next rank by itself. -/
def nearestRank (n d : Nat) : Nat :=
  let shift := (n / d).log2 - 52
  shift * fractionCount + divHalfEven n (d * Nat.pow 2 shift)

/-- The number nearest to `± n / d`. -/
def ofRatio (negative : Bool) (n d : Nat) : Binary64 :=
  ofRank negative (nearestRank (n * unitsOfOne) d)

/-- The number nearest to a whole number, infinite when that is too large. -/
def ofInt (n : Int) : Binary64 := ofRatio (n < 0) n.natAbs 1

/-- The number nearest to `± digits · 10 ^ exponent`. The first two cases only keep the power of ten
small: past them every value rounds to infinity, and under them to zero. -/
def ofDecimal (negative : Bool) (digits : Nat) (exponent : Int) : Binary64 :=
  if digits = 0 then ofRank negative 0
  else if 400 < exponent then .infinity negative
  else if exponent < -(401 + digits.log2 : Int) then ofRank negative 0
  else if 0 ≤ exponent then ofRatio negative (digits * Nat.pow 10 exponent.toNat) 1
  else ofRatio negative digits (Nat.pow 10 (-exponent).toNat)

/-! ## Order -/

/-- Whether the number is neither NaN nor infinite. -/
def isFinite : Binary64 → Bool
  | .finite _ _ => true
  | _ => false

/-- The place of a number in the order of the format; NaN has none and both zeros share one. -/
def place : Binary64 → Option Int
  | .nan => none
  | .infinity negative => some (if negative then -magnitudeCount else magnitudeCount)
  | .finite negative r => some (if negative then -r.val else r.val)

/-- Less than; false as soon as one side is NaN. -/
def lt (x y : Binary64) : Bool :=
  match x.place, y.place with
  | some a, some b => a < b
  | _, _ => false

/-- Whether a number is zero or more; false for NaN. -/
def isNonneg (x : Binary64) : Bool :=
  match x.place with
  | some a => 0 ≤ a
  | none => false

/-- Whether a number is zero, of either sign. -/
def isZero (x : Binary64) : Bool := x.place = some 0

/-! ## Arithmetic -/

/-- The signed value of a finite number in units of `2⁻¹⁰⁷⁴`. -/
def signedUnits (negative : Bool) (r : Nat) : Int :=
  if negative then -(units r : Int) else units r

/-- The product, rounded once. -/
def mul : Binary64 → Binary64 → Binary64
  | .nan, _ => .nan
  | _, .nan => .nan
  | .infinity a, .infinity b => .infinity (a != b)
  | .infinity a, .finite b r => if r.val = 0 then .nan else .infinity (a != b)
  | .finite a r, .infinity b => if r.val = 0 then .nan else .infinity (a != b)
  | .finite a r, .finite b s => ofRatio (a != b) (units r * units s) (unitsOfOne * unitsOfOne)

/-- The sum, rounded once; opposite numbers cancel to positive zero. -/
def add : Binary64 → Binary64 → Binary64
  | .nan, _ => .nan
  | _, .nan => .nan
  | .infinity a, .infinity b => if a = b then .infinity a else .nan
  | .infinity a, .finite _ _ => .infinity a
  | .finite _ _, .infinity b => .infinity b
  | .finite a r, .finite b s =>
    let sum := signedUnits a r + signedUnits b s
    if sum = 0 then ofRank (a && b) 0 else ofRatio (sum < 0) sum.natAbs unitsOfOne

/-- The quotient by a positive whole number, rounded once. -/
def divNat (x : Binary64) (n : Nat) : Binary64 :=
  match x with
  | .finite a r => ofRatio a (units r) (n * unitsOfOne)
  | other => other

instance : Mul Binary64 := ⟨mul⟩
instance : Add Binary64 := ⟨add⟩

/-! ## Whole numbers -/

/-- Why a number has no whole part. -/
inductive NotWhole where
  /-- It is infinite. -/
  | infinite
  /-- It is NaN. -/
  | undefined
  deriving DecidableEq

/-- The wording of the failure. -/
def NotWhole.message : NotWhole → String
  | .infinite => "cannot convert float infinity to integer"
  | .undefined => "cannot convert float NaN to integer"

/-- The greatest whole number that is not above the number. -/
def floor : Binary64 → Except NotWhole Int
  | .nan => .error .undefined
  | .infinity _ => .error .infinite
  | .finite negative r => .ok (Int.fdiv (signedUnits negative r) unitsOfOne)

/-- The number without its fraction. -/
def truncate : Binary64 → Except NotWhole Int
  | .nan => .error .undefined
  | .infinity _ => .error .infinite
  | .finite negative r => .ok (Int.tdiv (signedUnits negative r) unitsOfOne)

/-- The whole number that a finite number is, if it is one. -/
def toInt? : Binary64 → Option Int
  | .finite negative r =>
    if units r % unitsOfOne = 0 then some (signedUnits negative r / unitsOfOne) else none
  | _ => none

end Binary64

end AgentFlow
