import AgentFlow.Digest.Crc32
import AgentFlow.Proofs.Blocks
import Mathlib.Data.Nat.Bitwise
import Mathlib.Logic.Function.Iterate

/-!
# What CRC-32 tells apart

The register is linear in itself and the message, so the check values of two messages of one length
differ by what the difference of the messages, fed to an empty register, leaves there (`crc32_xor`).
What can be said of that is said of two kinds of differences.

A difference that is confined to four bytes in a row leaves something
(`eq_zero_of_feed_eq_zero`). Its first bit sets the highest place of the register, since the
polynomial has that place; a further bit moves what is there down by one place at most
(`le_feedBit`), so it takes more than thirty-one bits to empty the register again; and the zeros
after the difference never empty a register that is not empty, because the shift keeps what it moves
(`shift_ne_zero`).

A difference in one byte leaves more than the lowest byte of the register, as long as it is at most
twenty-eight bytes from the end (`le_toNat_feed_cons`). That is a matter of the polynomial, and it
is computed.
-/

namespace AgentFlow

namespace Crc32

/-! ## Linearity -/

/-- A pattern that a bit lets through. -/
def masked (b : Bool) (p : BitVec 32) : BitVec 32 := if b then p else 0#32

theorem masked_xor (b c : Bool) (p : BitVec 32) :
    masked (xor b c) p = masked b p ^^^ masked c p := by
  cases b <;> cases c <;> simp [masked]

theorem shift_eq (r : BitVec 32) : shift r = (r >>> 1) ^^^ masked (r.getLsbD 0) polynomial := by
  rw [shift, masked]
  split
  · rfl
  · exact BitVec.xor_zero.symm

theorem feedBit_eq (r : BitVec 32) (b : Bool) : feedBit r b = shift (r ^^^ masked b 1#32) := by
  cases b
  · exact congrArg shift BitVec.xor_zero.symm
  · rfl

theorem shift_xor (r s : BitVec 32) : shift (r ^^^ s) = shift r ^^^ shift s := by
  rw [shift_eq, shift_eq, shift_eq, BitVec.getLsbD_xor, masked_xor, BitVec.ushiftRight_xor_distrib]
  ac_rfl

theorem feedBit_xor (r s : BitVec 32) (b c : Bool) :
    feedBit (r ^^^ s) (xor b c) = feedBit r b ^^^ feedBit s c := by
  rw [feedBit_eq, feedBit_eq, feedBit_eq, ← shift_xor, masked_xor]
  congr 1
  ac_rfl

theorem foldl_feedBit_xor {bs cs : List Bool} (h : bs.length = cs.length) (r s : BitVec 32) :
    (List.zipWith xor bs cs).foldl feedBit (r ^^^ s)
      = bs.foldl feedBit r ^^^ cs.foldl feedBit s := by
  induction bs generalizing cs r s with
  | nil =>
    obtain rfl := List.length_eq_zero_iff.mp h.symm
    rfl
  | cons b bs ih =>
    cases cs with
    | nil => exact absurd h (by simp)
    | cons c cs =>
      rw [List.zipWith_cons_cons, List.foldl_cons, feedBit_xor]
      exact ih (Nat.succ.inj h) _ _

theorem bitsOfByte_xor (x y : UInt8) :
    bitsOfByte (x ^^^ y) = List.zipWith xor (bitsOfByte x) (bitsOfByte y) := by
  simp [bitsOfByte, Nat.testBit_xor, List.zipWith_self]

@[simp] theorem length_bitsOfByte (x : UInt8) : (bitsOfByte x).length = 8 := by
  simp [bitsOfByte]

/-- **Feeding is linear** in the register and the message together. -/
theorem feed_xor {xs ys : List UInt8} (h : xs.length = ys.length) (r s : BitVec 32) :
    feed (r ^^^ s) (List.zipWith (· ^^^ ·) xs ys) = feed r xs ^^^ feed s ys := by
  rw [feed, flatMap_zipWith length_bitsOfByte bitsOfByte_xor]
  refine foldl_feedBit_xor ?_ r s
  rw [length_flatMap_of_length length_bitsOfByte, length_flatMap_of_length length_bitsOfByte, h]

theorem feed_append (r : BitVec 32) (xs ys : List UInt8) :
    feed r (xs ++ ys) = feed (feed r xs) ys := by
  rw [feed, List.flatMap_append, List.foldl_append]
  rfl

/-! ## Shifts -/

theorem toNat_shift_of_even {r : BitVec 32} (h : r.getLsbD 0 = false) :
    (shift r).toNat = r.toNat / 2 := by
  rw [shift, h, if_neg Bool.false_ne_true, BitVec.toNat_ushiftRight, Nat.shiftRight_one]

/-- What is moved out shows at the highest place, which the polynomial has. -/
theorem le_toNat_shift_of_odd {r : BitVec 32} (h : r.getLsbD 0 = true) :
    2 ^ 31 ≤ (shift r).toNat := by
  have hbit : (shift r).toNat.testBit 31 = true := by
    have hpoly : polynomial.getLsbD 31 = true := by decide
    rw [BitVec.testBit_toNat, shift, if_pos h, BitVec.getLsbD_xor, hpoly]
    simp [BitVec.getLsbD_of_ge]
  exact Nat.ge_two_pow_of_testBit hbit

theorem shift_ne_zero {r : BitVec 32} (h : r ≠ 0#32) : shift r ≠ 0#32 := by
  intro hzero
  have hnat : (shift r).toNat = 0 := by rw [hzero]; rfl
  cases hbit : r.getLsbD 0 with
  | true =>
    have hle := le_toNat_shift_of_odd hbit
    omega
  | false =>
    have hhalf := toNat_shift_of_even hbit
    have heven : r.toNat % 2 = 0 := by simpa [BitVec.getLsbD] using hbit
    exact h (BitVec.eq_of_toNat_eq (by simp; omega))

/-- A bit moves what is in the register down by one place at most. -/
theorem le_feedBit {r : BitVec 32} {j : Nat} (h : 2 ^ (j + 1) ≤ r.toNat) (b : Bool) :
    2 ^ j ≤ (feedBit r b).toNat := by
  -- the bit is taken in at the lowest place, which is the one that the shift drops
  have hhalf : (r ^^^ masked b 1#32).toNat / 2 = r.toNat / 2 := by
    cases b <;> simp [masked, Nat.xor_div_two]
  rw [feedBit_eq]
  cases hbit : (r ^^^ masked b 1#32).getLsbD 0 with
  | true =>
    refine le_trans (Nat.pow_le_pow_right (by decide) ?_) (le_toNat_shift_of_odd hbit)
    have hlt : 2 ^ (j + 1) < 2 ^ 32 := h.trans_lt r.isLt
    have := (Nat.pow_lt_pow_iff_right (by decide)).mp hlt
    omega
  | false =>
    rw [toNat_shift_of_even hbit, hhalf, Nat.le_div_iff_mul_le (by decide), ← Nat.pow_succ]
    exact h

theorem le_foldl_feedBit (bs : List Bool) {r : BitVec 32} {j : Nat}
    (h : 2 ^ (j + bs.length) ≤ r.toNat) : 2 ^ j ≤ (bs.foldl feedBit r).toNat := by
  induction bs generalizing r with
  | nil => exact h
  | cons b bs ih => exact ih (le_feedBit h b)

/-! ## Bursts -/

/-- Up to thirty-two bits, not all of them zero, do not leave an empty register empty. -/
theorem foldl_feedBit_ne_zero {bs : List Bool} (hlength : bs.length ≤ 32) (h : true ∈ bs) :
    bs.foldl feedBit 0#32 ≠ 0#32 := by
  induction bs with
  | nil => exact absurd h List.not_mem_nil
  | cons b bs ih =>
    rw [List.length_cons] at hlength
    cases b with
    | false => exact ih (by omega) ((List.mem_cons.mp h).resolve_left (by decide))
    | true =>
      -- the first bit that is set leaves the polynomial, and less than thirty-two bits follow it
      intro hzero
      have hle : 2 ^ (0 + bs.length) ≤ polynomial.toNat :=
        (Nat.pow_le_pow_right (by decide) (by omega)).trans (by decide : 2 ^ 31 ≤ polynomial.toNat)
      have hpos := le_foldl_feedBit bs hle
      rw [List.foldl_cons, show feedBit 0#32 true = polynomial by decide] at hzero
      rw [hzero] at hpos
      exact absurd hpos (by decide)

theorem true_mem_bitsOfByte {x : UInt8} (h : x ≠ 0) : true ∈ bitsOfByte x := by
  by_contra hnot
  refine h (UInt8.toNat_inj.mp (Nat.eq_of_testBit_eq fun i ↦ ?_))
  rcases Nat.lt_or_ge i 8 with hi | hi
  · cases hbit : x.toNat.testBit i with
    | false => simp
    | true => exact absurd (List.mem_map.mpr ⟨i, List.mem_range.mpr hi, hbit⟩) hnot
  · rw [Nat.testBit_lt_two_pow (x.toNat_lt.trans_le (Nat.pow_le_pow_right (by decide) hi))]
    simp

theorem feed_zero (r : BitVec 32) : feed r [0] = shift^[8] r := rfl

theorem feed_replicate (r : BitVec 32) (n : Nat) :
    feed r (List.replicate n 0) = (fun r ↦ feed r [0])^[n] r := by
  induction n generalizing r with
  | zero => rfl
  | succ n ih => exact ih (feed r [0])

theorem feed_zero_replicate (n : Nat) : feed 0#32 (List.replicate n 0) = 0#32 := by
  rw [feed_replicate, Function.iterate_fixed (by decide)]

theorem feed_replicate_ne_zero {r : BitVec 32} (h : r ≠ 0#32) (n : Nat) :
    feed r (List.replicate n 0) ≠ 0#32 := by
  induction n generalizing r with
  | zero => exact h
  | succ n ih =>
    refine ih (r := feed r [0]) ?_
    rw [feed_zero]
    exact Function.Iterate.rec (· ≠ 0#32) h (fun _ ↦ shift_ne_zero) 8

/-- **A burst** of up to four bytes shows: only zeros among zeros leave an empty register empty. -/
theorem eq_zero_of_feed_eq_zero {w : List UInt8} {k m : Nat} (hw : w.length ≤ 4)
    (h : feed 0#32 (List.replicate k 0 ++ w ++ List.replicate m 0) = 0#32) : ∀ x ∈ w, x = 0 := by
  intro x hx
  by_contra hne
  refine feed_replicate_ne_zero (r := feed 0#32 w) ?_ m ?_
  · refine foldl_feedBit_ne_zero ?_ (List.mem_flatMap.mpr ⟨x, hx, true_mem_bitsOfByte hne⟩)
    rw [length_flatMap_of_length length_bitsOfByte]
    omega
  · rw [feed_append, feed_append, feed_zero_replicate] at h
    exact h

/-! ## A byte before zeros

Where the register is compared with bytes that stand before the message, a difference in both is no
burst. But a byte and the zeros after it leave few registers. They are computed one by one, on
numbers: `shiftNat` is three operations that the kernel has of its own, and `keepsAbove` comes upon
each register once. -/

/-- `shift` on numbers. -/
def shiftNat (n : Nat) : Nat :=
  Nat.xor (Nat.div n 2) (Nat.mul (Nat.mod n 2) polynomial.toNat)

/-- Eight shifts, which is what a byte of zeros does. -/
def shiftByte (n : Nat) : Nat :=
  shiftNat (shiftNat (shiftNat (shiftNat (shiftNat (shiftNat (shiftNat (shiftNat n)))))))

/-- Whether the register is more than a byte at the start of each of `count` bytes of zeros. -/
def keepsAbove : Nat → Nat → Bool
  | 0, _ => true
  | count + 1, n => Nat.ble 256 n && keepsAbove count (shiftByte n)

theorem toNat_shift : Function.Semiconj BitVec.toNat shift shiftNat := by
  intro r
  have hodd : r.getLsbD 0 = decide (r.toNat % 2 = 1) := by
    simp [BitVec.getLsbD, Nat.testBit_zero]
  change _ = r.toNat / 2 ^^^ r.toNat % 2 * polynomial.toNat
  rw [shift, hodd]
  rcases Nat.mod_two_eq_zero_or_one r.toNat with h | h <;> simp [h, Nat.shiftRight_one]

theorem toNat_feed_zero : Function.Semiconj BitVec.toNat (feed · [0]) shiftByte := by
  intro r
  change (feed r [0]).toNat = shiftByte r.toNat
  rw [feed_zero]
  exact toNat_shift.iterate_right 8 r

theorem toNat_feedBit (r : BitVec 32) (b : Bool) :
    (feedBit r b).toNat = shiftNat (r.toNat ^^^ b.toNat) := by
  rw [feedBit_eq, toNat_shift, BitVec.toNat_xor]
  cases b <;> rfl

theorem toNat_foldl_feedBit (bs : List Bool) (r : BitVec 32) :
    (bs.foldl feedBit r).toNat = bs.foldl (fun n b ↦ shiftNat (n ^^^ b.toNat)) r.toNat := by
  induction bs generalizing r with
  | nil => rfl
  | cons b bs ih => rw [List.foldl_cons, List.foldl_cons, ih, toNat_feedBit]

theorem le_iterate_of_keepsAbove {count n k : Nat} (h : keepsAbove count n = true)
    (hk : k < count) : 256 ≤ shiftByte^[k] n := by
  induction count generalizing n k with
  | zero => exact absurd hk (Nat.not_lt_zero k)
  | succ count ih =>
    rw [keepsAbove, Bool.and_eq_true, Nat.ble_eq] at h
    cases k with
    | zero => exact h.1
    | succ k =>
      rw [Function.iterate_succ_apply]
      exact ih h.2 (Nat.lt_of_succ_lt_succ hk)

private theorem keepsAbove_byte : ∀ x < 256, x ≠ 0 → keepsAbove 29
    ((bitsOfByte (UInt8.ofNat x)).foldl (fun n b ↦ shiftNat (n ^^^ b.toNat)) 0) = true := by
  decide +kernel

/-- A byte other than zero and up to twenty-eight zeros leave more than a byte in the register. -/
theorem le_toNat_feed_cons {x : UInt8} (hx : x ≠ 0) {n : Nat} (hn : n < 29) :
    256 ≤ (feed 0#32 (x :: List.replicate n 0)).toNat := by
  have hbyte : (feed 0#32 [x]).toNat
      = (bitsOfByte (UInt8.ofNat x.toNat)).foldl (fun n b ↦ shiftNat (n ^^^ b.toNat)) 0 := by
    rw [UInt8.ofNat_toNat, feed, List.flatMap_singleton, toNat_foldl_feedBit]
    rfl
  have hzeros : (feed 0#32 (x :: List.replicate n 0)).toNat
      = shiftByte^[n] (feed 0#32 [x]).toNat := by
    rw [← List.singleton_append, feed_append, feed_replicate]
    exact toNat_feed_zero.iterate_right n _
  have hne : x.toNat ≠ 0 := fun h ↦ hx (UInt8.toNat_inj.mp h)
  rw [hzeros, hbyte]
  exact le_iterate_of_keepsAbove (keepsAbove_byte x.toNat x.toNat_lt hne) hn

end Crc32

/-! ## Check values -/

/-- The check values of two messages of one length differ by what their difference makes of an empty
register. -/
theorem crc32_xor {xs ys : List UInt8} (h : xs.length = ys.length) :
    crc32 xs ^^^ crc32 ys = Crc32.feed 0#32 (List.zipWith (· ^^^ ·) xs ys) := by
  have hnot : ∀ r s : BitVec 32, ~~~r ^^^ ~~~s = r ^^^ s := by
    intro r s
    ext i
    simp
  rw [crc32, crc32, hnot, ← Crc32.feed_xor h, BitVec.xor_self]

end AgentFlow
