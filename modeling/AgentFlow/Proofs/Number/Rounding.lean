import AgentFlow.Number.Decimal
import Mathlib.Data.Nat.Log
import Mathlib.Tactic.Ring

/-!
# Rounding

A quotient of whole numbers is rounded by its value, however it is written
(`Binary64.nearestRank_mul`), and the magnitude of a rank is rounded to this rank
(`Binary64.nearestRank_units`). So a decimal is rounded by its value too
(`Binary64.ofDecimal_eq_ofRatio`), and zeros at the end of its digits make no difference.

Of the digits that are written for a magnitude nothing has to be known but that they are taken from
candidates that read back, or else are all digits of the magnitude (`Decimal.ofDecimal_shortest`).
-/

namespace AgentFlow

namespace Binary64

/-! ## Quotients -/

theorem divHalfEven_mul {k : Nat} (n d : Nat) (hk : 0 < k) :
    divHalfEven (n * k) (d * k) = divHalfEven n d := by
  have hrest : 2 * (n % d * k) = 2 * (n % d) * k := (Nat.mul_assoc _ _ _).symm
  simp only [divHalfEven, Nat.mul_div_mul_right _ _ hk, Nat.mul_mod_mul_right, hrest,
    Nat.mul_lt_mul_right hk]

theorem divHalfEven_mul_self {d : Nat} (q : Nat) (hd : 0 < d) : divHalfEven (q * d) d = q := by
  simp [divHalfEven, Nat.mul_div_cancel q hd, Nat.mul_mod_left, hd]

/-- A quotient is rounded by its value, however it is written. -/
theorem nearestRank_mul {k : Nat} (n d : Nat) (hk : 0 < k) :
    nearestRank (n * k) (d * k) = nearestRank n d := by
  rw [nearestRank, nearestRank, Nat.mul_div_mul_right _ _ hk, Nat.mul_right_comm,
    divHalfEven_mul _ _ hk]

theorem log2_mul_pow {m : Nat} (k : Nat) (hle : 2 ^ 52 ≤ m) (hlt : m < 2 ^ 53) :
    (m * 2 ^ k).log2 = 52 + k := by
  have hpos : 0 < 2 ^ k := Nat.two_pow_pos k
  have hm : 0 < m := (Nat.two_pow_pos 52).trans_le hle
  rw [Nat.log2_eq_iff (Nat.mul_pos hm hpos).ne', Nat.add_right_comm, Nat.pow_add, Nat.pow_add]
  exact ⟨Nat.mul_le_mul_right _ hle, Nat.mul_lt_mul_of_pos_right hlt hpos⟩

/-- The magnitude of a rank is rounded to this rank. -/
theorem nearestRank_units (r : Nat) : nearestRank (units r) 1 = r := by
  have hpos : 0 < fractionCount := Nat.pow_pos Nat.two_pos
  rw [nearestRank, Nat.div_one, Nat.one_mul, units]
  split
  next hlt =>
    have hlog : r.log2 - 52 = 0 := by
      rcases Nat.eq_zero_or_pos r with rfl | hr
      · simp
      · have := (Nat.log2_lt hr.ne').mpr (show r < 2 ^ 52 from hlt)
        omega
    rw [hlog, Nat.zero_mul, Nat.zero_add]
    exact (congrArg (divHalfEven · 1) (Nat.mul_one r).symm).trans
      (divHalfEven_mul_self r Nat.one_pos)
  next hle =>
    have hlt : r % fractionCount < fractionCount := Nat.mod_lt r hpos
    have hexp : 1 ≤ r / fractionCount := Nat.div_pos (Nat.not_lt.mp hle) hpos
    -- the bits in front of the fraction say which exponent it is
    have hlog : ((fractionCount + r % fractionCount) * Nat.pow 2 (r / fractionCount - 1)).log2
        = 52 + (r / fractionCount - 1) :=
      log2_mul_pow _ (Nat.le_add_right _ _) (Nat.add_lt_add_left hlt fractionCount)
    have hexact := divHalfEven_mul_self (d := Nat.pow 2 (r / fractionCount - 1))
      (fractionCount + r % fractionCount) (Nat.pow_pos Nat.two_pos)
    rw [hlog, Nat.add_sub_cancel_left, hexact]
    have hsplit := Nat.div_add_mod r fractionCount
    have hmul : (r / fractionCount - 1) * fractionCount + fractionCount
        = fractionCount * (r / fractionCount) := by
      rw [← Nat.succ_mul, Nat.succ_eq_add_one, Nat.sub_add_cancel hexp, Nat.mul_comm]
    omega

/-! ## Decimals -/

theorem nearestRank_eq_zero {n d : Nat} (h : 2 * n < d) : nearestRank n d = 0 := by
  have hdiv : n / d = 0 := Nat.div_eq_of_lt (by omega)
  have hmod : n % d = n := Nat.mod_eq_of_lt (by omega)
  simp [nearestRank, divHalfEven, hdiv, hmod, h]

theorem magnitudeCount_le_nearestRank {k n : Nat} (hk : 2099 ≤ k) (h : 2 ^ k ≤ n) :
    magnitudeCount ≤ nearestRank n 1 := by
  have hlog : k ≤ n.log2 := (Nat.le_log2 (Nat.two_pow_pos k |>.trans_le h).ne').mpr h
  have hmul : 2047 * fractionCount ≤ (n.log2 - 52) * fractionCount :=
    Nat.mul_le_mul_right _ (by omega)
  rw [nearestRank, Nat.div_one]
  exact hmul.trans (Nat.le_add_right _ _)

theorem two_pow_mul_unitsOfOne (n : Nat) : 2 ^ n * unitsOfOne = 2 ^ (n + 1074) := by
  unfold unitsOfOne
  generalize 1074 = m
  exact (Nat.pow_add 2 n m).symm

theorem unitsOfOne_pos : 0 < unitsOfOne := by
  unfold unitsOfOne
  generalize 1074 = m
  exact Nat.pow_pos Nat.two_pos

theorem two_pow_le_ten_pow (n : Nat) : 2 ^ (3 * n) ≤ 10 ^ n := by
  rw [Nat.pow_mul]
  exact Nat.pow_le_pow_left (by decide) n

theorem ofRatio_of_large (negative : Bool) {digits exponent : Nat} (hdigits : digits ≠ 0)
    (hlarge : 400 < exponent) :
    ofRatio negative (digits * 10 ^ exponent) 1 = .infinity negative := by
  have hvalue : 2 ^ (3 * exponent + 1074) ≤ digits * 10 ^ exponent * unitsOfOne := by
    rw [← two_pow_mul_unitsOfOne]
    refine Nat.mul_le_mul_right _ ((two_pow_le_ten_pow _).trans ?_)
    exact Nat.le_mul_of_pos_left _ (Nat.pos_of_ne_zero hdigits)
  have hrank := magnitudeCount_le_nearestRank (by omega) hvalue
  rw [ofRatio, ofRank, dif_neg (Nat.not_lt.mpr hrank)]

theorem ofRatio_of_small (negative : Bool) {digits places : Nat}
    (hsmall : 401 + digits.log2 < places) :
    ofRatio negative digits (10 ^ places) = ofRank negative 0 := by
  have hdigits : digits * unitsOfOne < 2 ^ (digits.log2 + 1 + 1074) := by
    rw [← two_pow_mul_unitsOfOne]
    exact Nat.mul_lt_mul_of_pos_right Nat.lt_log2_self unitsOfOne_pos
  have hvalue : 2 ^ (digits.log2 + 1 + 1074) * 2 ≤ 10 ^ places := by
    rw [← Nat.pow_succ]
    exact (Nat.pow_le_pow_right Nat.two_pos (by omega)).trans (two_pow_le_ten_pow _)
  rw [ofRatio, nearestRank_eq_zero]
  exact (Nat.mul_comm 2 _).trans_lt
    ((Nat.mul_lt_mul_of_pos_right hdigits Nat.two_pos).trans_le hvalue)

/-- A decimal is rounded by its value: that great and small ones are told apart first is no
rounding of its own. -/
theorem ofDecimal_eq_ofRatio (negative : Bool) (digits : Nat) (exponent : Int) :
    ofDecimal negative digits exponent
      = ofRatio negative (digits * 10 ^ exponent.toNat) (10 ^ (-exponent).toNat) := by
  have hnonneg : 0 ≤ exponent → 10 ^ (-exponent).toNat = 1 := by
    intro h
    rw [show (-exponent).toNat = 0 by omega, Nat.pow_zero]
  have hneg : exponent < 0 → digits * 10 ^ exponent.toNat = digits := by
    intro h
    rw [show exponent.toNat = 0 by omega, Nat.pow_zero, Nat.mul_one]
  rw [ofDecimal]
  split_ifs with hzero hlarge hsmall hsign
  · have hrank : nearestRank 0 (10 ^ (-exponent).toNat) = 0 :=
      nearestRank_eq_zero (Nat.pow_pos (by decide))
    rw [hzero, ofRatio, Nat.zero_mul, Nat.zero_mul, hrank]
  · rw [hnonneg (by omega), ofRatio_of_large negative hzero (by omega)]
  · rw [hneg (by omega), ofRatio_of_small negative (by omega)]
  · rw [hnonneg hsign]
    rfl
  · rw [hneg (by omega)]
    rfl

/-- Zeros at the end of the digits may as well stand in the exponent. -/
theorem ofDecimal_mul_pow (negative : Bool) (digits k : Nat) (exponent : Int) :
    ofDecimal negative (digits * 10 ^ k) exponent = ofDecimal negative digits (exponent + k) := by
  have hten : ∀ n, 0 < 10 ^ n := fun n ↦ Nat.pow_pos (by decide)
  rw [ofDecimal_eq_ofRatio, ofDecimal_eq_ofRatio, ofRatio, ofRatio]
  generalize unitsOfOne = u
  -- the quotients agree after the numerator and denominator of each are multiplied by the
  -- denominator of the other
  have hexp : k + exponent.toNat + (-(exponent + k)).toNat
      = (exponent + k).toNat + (-exponent).toNat := by omega
  have hnum : digits * 10 ^ k * 10 ^ exponent.toNat * u * 10 ^ (-(exponent + k)).toNat
      = digits * 10 ^ (exponent + k).toNat * u * 10 ^ (-exponent).toNat := by
    calc digits * 10 ^ k * 10 ^ exponent.toNat * u * 10 ^ (-(exponent + k)).toNat
        = digits * u * 10 ^ (k + exponent.toNat + (-(exponent + k)).toNat) := by
          rw [Nat.pow_add, Nat.pow_add]
          ring
      _ = digits * 10 ^ (exponent + k).toNat * u * 10 ^ (-exponent).toNat := by
          rw [hexp, Nat.pow_add]
          ring
  rw [← nearestRank_mul _ (10 ^ (-exponent).toNat) (hten (-(exponent + k)).toNat), hnum,
    Nat.mul_comm (10 ^ (-exponent).toNat), nearestRank_mul _ _ (hten _)]

/-- The sign of a decimal is that of the number. -/
theorem ofDecimal_of_finite {digits : Nat} {exponent : Int} {r : Fin magnitudeCount}
    (h : ofDecimal false digits exponent = .finite false r) (negative : Bool) :
    ofDecimal negative digits exponent = .finite negative r := by
  rw [ofDecimal_eq_ofRatio, ofRatio, ofRank] at h ⊢
  split at h
  next hlt =>
    rw [dif_pos hlt]
    exact congrArg (finite negative) (finite.inj h).2
  next => exact absurd h (by simp)

end Binary64

namespace Decimal

open Binary64

theorem five_pow_mul_unitsOfOne : Nat.pow 5 1074 * unitsOfOne = 10 ^ 1074 := by
  unfold unitsOfOne
  generalize 1074 = m
  exact (Nat.mul_pow 5 2 m).symm

/-- What is written exactly reads back. -/
theorem ofDecimal_exact (r : Nat) :
    ofDecimal false (exact r).digits (exact r).exponent = ofRank false r := by
  have hone : units r * Nat.pow 5 1074 * unitsOfOne = units r * 10 ^ 1074 := by
    rw [Nat.mul_assoc, five_pow_mul_unitsOfOne]
  have hrank : ∀ n, nearestRank (units r * 10 ^ n) (10 ^ n) = r := by
    intro n
    have hmul := nearestRank_mul (k := 10 ^ n) (units r) 1 (Nat.pow_pos (by decide))
    rwa [nearestRank_units, Nat.one_mul] at hmul
  have hexp : (exact r).exponent.toNat = 0 ∧ (-(exact r).exponent).toNat = 1074 := ⟨rfl, rfl⟩
  rw [ofDecimal_eq_ofRatio, ofRatio, hexp.1, hexp.2, Nat.pow_zero, Nat.mul_one, exact, hone, hrank]

theorem ofDecimal_of_candidate? {r count : Nat} {x : Decimal} (h : candidate? r count = some x) :
    ofDecimal false x.digits x.exponent = ofRank false r := by
  unfold candidate? at h
  obtain ⟨m, hfound, rfl⟩ := Option.map_eq_some_iff.mp h
  have hreads := List.find?_some hfound
  exact of_decide_eq_true hreads

/-- **The digits that are written for a magnitude read back as this magnitude.** The candidates are
tried by reading them, so this does not rest on how they are found. -/
theorem ofDecimal_shortest (r : Nat) :
    ofDecimal false (shortest r).digits (shortest r).exponent = ofRank false r := by
  rw [shortest]
  cases hfound : (List.range 17).findSome? fun i ↦ candidate? r (i + 1) with
  | none => exact ofDecimal_exact r
  | some x =>
    obtain ⟨i, -, hcandidate⟩ := List.exists_of_findSome?_eq_some hfound
    exact ofDecimal_of_candidate? hcandidate

end Decimal

end AgentFlow
