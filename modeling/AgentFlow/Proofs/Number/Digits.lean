import AgentFlow.Number.Decimal
import Mathlib.Data.List.Basic
import Mathlib.Data.List.TakeWhile
import Mathlib.Tactic.Ring

/-!
# Digits

The digits of a whole number write it, and do not start with zero unless it is zero. A decimal is
written by its digits up to the last that is not zero, which have its value once the zeros behind
them are counted (`Decimal.exists_leading`).
-/

namespace AgentFlow

/-! ## Whole numbers -/

theorem digitValue?_of_isDigit {c : Char} (hc : c.isDigit) :
    digitValue? c = some (c.toNat - '0'.toNat) := by
  rw [Char.isDigit, Bool.and_eq_true, decide_eq_true_iff, decide_eq_true_iff] at hc
  exact if_pos hc

theorem isAsciiDigit_of_mem_decimalDigits {n : Nat} {c : Char} (hc : c ∈ decimalDigits n) :
    isAsciiDigit c := by
  rw [isAsciiDigit, digitValue?_of_isDigit (Nat.isDigit_of_mem_toDigits (by decide) (by decide) hc)]
  rfl

theorem digitsValue_eq_ofDigitChars {cs : List Char} (hcs : ∀ c ∈ cs, c.isDigit) :
    digitsValue cs = Nat.ofDigitChars 10 cs 0 := by
  have hfold : ∀ m, cs.foldl (fun n c ↦ 10 * n + (digitValue? c).getD 0) m
      = Nat.ofDigitChars 10 cs m := by
    induction cs with
    | nil => exact fun _ ↦ rfl
    | cons c cs ih =>
      intro m
      rw [List.foldl_cons, digitValue?_of_isDigit (hcs c List.mem_cons_self), Option.getD_some,
        ih fun d hd ↦ hcs d (List.mem_cons_of_mem c hd), Nat.ofDigitChars_cons]
  exact hfold 0

theorem digitsValue_decimalDigits (n : Nat) : digitsValue (decimalDigits n) = n := by
  have hdigits : ∀ c ∈ decimalDigits n, c.isDigit := fun c hc ↦
    Nat.isDigit_of_mem_toDigits (by decide) (by decide) hc
  rw [digitsValue_eq_ofDigitChars hdigits]
  exact Nat.ofDigitChars_ten_toDigits

theorem digitsValue_append (cs ds : List Char) :
    digitsValue (cs ++ ds) = digitsValue cs * 10 ^ ds.length + digitsValue ds := by
  have hfold : ∀ m, ds.foldl (fun n c ↦ 10 * n + (digitValue? c).getD 0) m
      = m * 10 ^ ds.length + digitsValue ds := by
    induction ds with
    | nil => simp [digitsValue]
    | cons d ds ih =>
      intro m
      rw [digitsValue, List.foldl_cons, List.foldl_cons, ih, ih, List.length_cons, Nat.pow_succ]
      ring
  rw [digitsValue, List.foldl_append, hfold]
  rfl

theorem digitsValue_replicate_zero (k : Nat) : digitsValue (List.replicate k '0') = 0 := by
  induction k with
  | zero => rfl
  | succ k ih => exact ih

/-- The digits of a number that is not zero start with one that is not. -/
theorem head?_decimalDigits_ne_zero {n : Nat} (hn : 0 < n) :
    (decimalDigits n).head? ≠ some '0' := by
  have hdigit : ∀ d < 10, 0 < d → d.digitChar ≠ '0' := by decide
  induction n using Nat.strong_induction_on with
  | _ n ih =>
    rw [decimalDigits, Nat.toDigits_eq_if (by decide)]
    split
    next hlt => simpa using hdigit n hlt hn
    next hle =>
      rw [List.head?_append_of_ne_nil _ Nat.toDigits_ne_nil]
      exact ih (n / 10) (by omega) (by omega)

/-! ## Decimals -/

namespace Decimal

/-- Digits of a number that is not zero, without zeros in front. -/
structure Leads (ds : List Char) : Prop where
  digits : ∀ c ∈ ds, isAsciiDigit c
  ne_nil : ds ≠ []
  head : ds.head? ≠ some '0'

theorem exists_append_replicate (ds : List Char) :
    ∃ k, ds = (ds.reverse.dropWhile (· = '0')).reverse ++ List.replicate k '0' := by
  have hzeros : ∀ d ∈ ds.reverse.takeWhile (· = '0'), d = '0' := by
    intro d hd
    simpa using List.mem_takeWhile_imp hd
  refine ⟨(ds.reverse.takeWhile (· = '0')).length, ?_⟩
  rw [← List.reverse_replicate, ← List.eq_replicate_of_mem hzeros, ← List.reverse_append,
    List.takeWhile_append_dropWhile, List.reverse_reverse]

/-- What is written of a decimal: its digits up to the last that is not zero. -/
theorem exists_leading {x : Decimal} (hx : 0 < x.digits) :
    ∃ (ds : List Char) (k : Nat), Leads ds ∧ x.digits = digitsValue ds * 10 ^ k ∧
      x.leading = (ds, x.exponent + k + ds.length - 1) := by
  obtain ⟨k, hk⟩ := exists_append_replicate (decimalDigits x.digits)
  rw [leading]
  generalize ((decimalDigits x.digits).reverse.dropWhile (· = '0')).reverse = ds at hk ⊢
  have hvalue : x.digits = digitsValue ds * 10 ^ k := by
    rw [← digitsValue_decimalDigits x.digits, hk, digitsValue_append, digitsValue_replicate_zero,
      List.length_replicate, Nat.add_zero]
  have hne : ds ≠ [] := by
    rintro rfl
    rw [hvalue] at hx
    exact absurd hx (by simp [digitsValue])
  have hlength : ((decimalDigits x.digits).length : Int) = k + ds.length := by
    rw [hk, List.length_append, List.length_replicate]
    omega
  refine ⟨ds, k, ⟨fun c hc ↦ ?_, hne, ?_⟩, hvalue, ?_⟩
  · exact isAsciiDigit_of_mem_decimalDigits (hk ▸ List.mem_append_left _ hc)
  · have hhead : (decimalDigits x.digits).head? = ds.head? := by
      rw [hk, List.head?_append_of_ne_nil ds hne]
    rw [← hhead]
    exact head?_decimalDigits_ne_zero hx
  · rw [hlength, Int.add_assoc x.exponent]

end Decimal

end AgentFlow
