import AgentFlow.Proofs.Digest.Crc32
import AgentFlow.Proofs.Principal.Codec
import Mathlib.Data.Set.Function

/-!
# Slips in the texts of principals

A slip puts one character in the place of another, or two neighbours in the wrong order. No slip
makes one principal out of another: a text that a slip made of a valid text is not valid
(`not_isValid_of_slip`).

If it were, both texts would have digits at the same places, so that the slip would be one in the
values of the digits, and the difference of the values would be zero but for two neighbours. The
difference of the bytes is `Unseen`: its first four bytes are what CRC-32 makes of the others. Where
the two neighbours stand decides why there is no such difference but zero. Among the first six
values they change the checksum only, which the body determines. From the eighth value on they
change the body only, and less than four bytes of it, and CRC-32 sees such a burst. In between they
may reach from the checksum into the body. The checksum stands before the body, so this is no burst;
but one byte of the body would have to change one byte of the checksum alone, and none does.
-/

namespace AgentFlow

/-! ## Slips -/

/-- One element is replaced, or two neighbours are swapped. -/
inductive Slip {α : Type} : List α → List α → Prop where
  /-- An element stands in the place of another. -/
  | replace (before after : List α) (a b : α) : Slip (before ++ a :: after) (before ++ b :: after)
  /-- Two neighbours stand in the wrong order. -/
  | swap (before after : List α) (a b : α) :
      Slip (before ++ a :: b :: after) (before ++ b :: a :: after)

namespace Slip

variable {α β : Type} {l l' : List α}

theorem length_eq (h : Slip l l') : l'.length = l.length := by
  cases h <;> simp

theorem map (f : α → β) (h : Slip l l') : Slip (l.map f) (l'.map f) := by
  cases h with
  | replace before after a b => simpa using replace (before.map f) (after.map f) (f a) (f b)
  | swap before after a b => simpa using swap (before.map f) (after.map f) (f a) (f b)

/-- Among the elements of one kind a slip is a slip, unless it only concerns others. -/
theorem filter {p : α → Bool} (h : Slip l l')
    (hlength : (l'.filter p).length = (l.filter p).length) :
    Slip (l.filter p) (l'.filter p) ∨ l'.filter p = l.filter p := by
  cases h with
  | replace before after a b =>
    simp only [List.filter_append, List.filter_cons] at hlength ⊢
    cases ha : p a <;> cases hb : p b
    · exact .inr rfl
    · simp [ha, hb] at hlength
    · simp [ha, hb] at hlength
    · exact .inl (replace (before.filter p) (after.filter p) a b)
  | swap before after a b =>
    simp only [List.filter_append, List.filter_cons]
    cases ha : p a <;> cases hb : p b
    · exact .inr rfl
    · exact .inr rfl
    · exact .inr rfl
    · exact .inl (swap (before.filter p) (after.filter p) a b)

/-- What a slip changes in a list of numbers are two neighbours at most. -/
theorem exists_zipWith_xor {l l' : List Nat} (h : Slip l l') :
    ∃ (i j : Nat) (w : List Nat), w.length ≤ 2 ∧
      List.zipWith (· ^^^ ·) l l' = List.replicate i 0 ++ w ++ List.replicate j 0 := by
  have hsame : ∀ l : List Nat, List.zipWith (· ^^^ ·) l l = List.replicate l.length 0 := by
    intro l
    simp [List.zipWith_self, List.map_const']
  cases h with
  | replace before after a b =>
    refine ⟨before.length, after.length, [a ^^^ b], by simp, ?_⟩
    rw [List.zipWith_append rfl, List.zipWith_cons_cons, hsame, hsame]
    simp
  | swap before after a b =>
    refine ⟨before.length, after.length, [a ^^^ b, b ^^^ a], by simp, ?_⟩
    rw [List.zipWith_append rfl, List.zipWith_cons_cons, List.zipWith_cons_cons, hsame, hsame]
    simp

end Slip

namespace Principal

open Base32 (bytesOf)

/-! ## Bytes of a number -/

theorem bigEndian_xor (width m n : Nat) :
    Sha256.bigEndian width (m ^^^ n)
      = List.zipWith (· ^^^ ·) (Sha256.bigEndian width m) (Sha256.bigEndian width n) := by
  have hbyte : ∀ i, UInt8.ofNat ((m ^^^ n) / Nat.pow 256 i)
      = UInt8.ofNat (m / Nat.pow 256 i) ^^^ UInt8.ofNat (n / Nat.pow 256 i) := by
    intro i
    have hpow : Nat.pow 256 i = 2 ^ (8 * i) := (Nat.pow_mul 2 8 i).symm
    rw [hpow, Nat.xor_div_two_pow, UInt8.ofNat_xor]
  simp only [Sha256.bigEndian, hbyte]
  rw [← List.reverse_zipWith (by simp), List.zipWith_map, List.zipWith_self]

/-- The first three bytes of a register are zero only if the last one is all there is. -/
theorem lt_of_take_bigEndian {r : BitVec 32}
    (h : (Sha256.bigEndian 4 r.toNat).take 3 = List.replicate 3 0) : r.toNat < 256 := by
  have hlt := r.isLt
  simp [Sha256.bigEndian, List.range_succ, ← UInt8.toNat_inj] at h
  omega

theorem eq_zero_of_bigEndian {r : BitVec 32}
    (h : Sha256.bigEndian 4 r.toNat = List.replicate 4 0) : r = 0#32 := by
  have hlt := lt_of_take_bigEndian (congrArg (List.take 3) h)
  refine BitVec.eq_of_toNat_eq ?_
  simp [Sha256.bigEndian, List.range_succ, ← UInt8.toNat_inj] at h ⊢
  omega

/-! ## Differences that the checksum does not see -/

/-- The first four bytes are those that CRC-32 makes of the others. -/
def Unseen (difference : List UInt8) : Prop :=
  difference.take 4 = Sha256.bigEndian 4 (Crc32.feed 0#32 (difference.drop 4)).toNat

/-- Checksums that fit their bytes differ by what fits the difference of the bytes. -/
theorem unseen_zipWith {xs ys : List UInt8} (h : xs.length = ys.length) :
    Unseen (List.zipWith (· ^^^ ·) (checksum xs ++ xs) (checksum ys ++ ys)) := by
  have hfour : (List.zipWith (· ^^^ ·) (checksum xs) (checksum ys)).length = 4 := by
    simp [length_checksum]
  rw [Unseen, List.zipWith_append ((length_checksum xs).trans (length_checksum ys).symm),
    List.take_left' hfour, List.drop_left' hfour, ← crc32_xor h, BitVec.toNat_xor, bigEndian_xor]
  rfl

namespace Unseen

variable {l : List UInt8}

/-- The body determines the checksum. -/
theorem eq_zero_of_drop (h : Unseen l) {n : Nat} (hdrop : l.drop 4 = List.replicate n 0) :
    ∀ x ∈ l, x = 0 := by
  have htake : l.take 4 = List.replicate 4 0 := by
    rw [h, hdrop, Crc32.feed_zero_replicate]
    rfl
  rw [← List.take_append_drop 4 l, htake, hdrop, List.replicate_append_replicate]
  exact fun x ↦ List.eq_of_mem_replicate

/-- Less than four bytes of the body are a burst. -/
theorem eq_zero_of_burst (h : Unseen l) {k n : Nat} (hk : 4 ≤ k)
    (htake : l.take k = List.replicate k 0) (hdrop : l.drop (k + 3) = List.replicate n 0) :
    ∀ x ∈ l, x = 0 := by
  have hchecksum : l.take 4 = List.replicate 4 0 := by
    rw [← Nat.min_eq_left hk, ← List.take_take, htake, List.take_replicate, Nat.min_eq_left hk]
  have hlength : 4 ≤ (l.take k).length := by rwa [htake, List.length_replicate]
  have hbody : l.drop 4
      = List.replicate (k - 4) 0 ++ (l.drop k).take 3 ++ List.replicate n 0 := by
    calc l.drop 4 = (l.take k).drop 4 ++ l.drop k := by
          rw [← List.drop_append_of_le_length hlength, List.take_append_drop]
      _ = List.replicate (k - 4) 0 ++ ((l.drop k).take 3 ++ (l.drop k).drop 3) := by
          rw [htake, List.drop_replicate, List.take_append_drop]
      _ = List.replicate (k - 4) 0 ++ (l.drop k).take 3 ++ List.replicate n 0 := by
          rw [List.drop_drop, hdrop, List.append_assoc]
  have hzero : ∀ x ∈ (l.drop k).take 3, x = 0 := by
    have hfeed : Crc32.feed 0#32 (l.drop 4) = 0#32 := eq_zero_of_bigEndian (h ▸ hchecksum)
    rw [hbody] at hfeed
    exact Crc32.eq_zero_of_feed_eq_zero ((List.length_take_le 3 _).trans (by decide)) hfeed
  refine h.eq_zero_of_drop (n := (k - 4) + ((l.drop k).take 3).length + n) ?_
  rw [hbody, List.eq_replicate_of_mem hzero]
  simp [List.replicate_append_replicate]

/-- The first byte of the body does not make up for the last byte of the checksum. -/
theorem eq_zero_of_straddling (h : Unseen l) (hlength : l.length ≤ 33) {n : Nat}
    (htake : l.take 3 = List.replicate 3 0) (hdrop : l.drop 5 = List.replicate n 0) :
    ∀ x ∈ l, x = 0 := by
  have hsmall : (Crc32.feed 0#32 (l.drop 4)).toNat < 256 := by
    refine lt_of_take_bigEndian ?_
    rw [← h, List.take_take]
    exact htake
  cases hbody : l.drop 4 with
  | nil => exact h.eq_zero_of_drop (n := 0) hbody
  | cons x rest =>
    have hrest : rest = List.replicate n 0 := by
      rw [← hdrop, ← List.drop_drop (i := 1) (j := 4), hbody]
      rfl
    have hn : n < 29 := by
      have := congrArg List.length hbody
      rw [hrest] at this
      simp at this
      omega
    rcases eq_or_ne x 0 with rfl | hx
    · exact h.eq_zero_of_drop (n := n + 1) (by rw [hbody, hrest, List.replicate_succ])
    · rw [hbody, hrest] at hsmall
      exact absurd hsmall (Nat.not_lt.mpr (Crc32.le_toNat_feed_cons hx hn))

end Unseen

/-- **Two neighbours** among the values make no difference that the checksum does not see. -/
theorem eq_zero_of_unseen {i j : Nat} {w : List Nat} (hw : w.length ≤ 2)
    (h : Unseen (bytesOf (List.replicate i 0 ++ w ++ List.replicate j 0)))
    (hlength : (bytesOf (List.replicate i 0 ++ w ++ List.replicate j 0)).length ≤ 33) :
    ∀ x ∈ bytesOf (List.replicate i 0 ++ w ++ List.replicate j 0), x = 0 := by
  have htake : ∀ k, 8 * k ≤ 5 * i →
      (bytesOf (List.replicate i 0 ++ w ++ List.replicate j 0)).take k = List.replicate k 0 := by
    intro k hk
    rw [List.append_assoc, Base32.take_bytesOf (by simpa using hk), Base32.bytesOf_replicate,
      List.take_replicate, Nat.min_eq_left (by omega)]
  have hdrop : ∀ k, 5 * (i + 2) ≤ 8 * k → ∃ n,
      (bytesOf (List.replicate i 0 ++ w ++ List.replicate j 0)).drop k = List.replicate n 0 := by
    intro k hk
    refine Base32.drop_bytesOf ?_ j
    rw [List.length_append, List.length_replicate]
    omega
  rcases Nat.lt_or_ge i 5 with hi | hi
  · -- six values are thirty bits, and the checksum has thirty-two
    obtain ⟨n, hn⟩ := hdrop 4 (by omega)
    exact h.eq_zero_of_drop hn
  rcases Nat.lt_or_ge i 7 with hi' | hi'
  · -- the last byte of the checksum and the first one of the body
    obtain ⟨n, hn⟩ := hdrop 5 (by omega)
    exact h.eq_zero_of_straddling hlength (htake 3 (by omega)) hn
  · -- ten bits of the body, which are in three bytes
    obtain ⟨n, hn⟩ := hdrop (5 * i / 8 + 3) (by omega)
    exact h.eq_zero_of_burst (by omega) (htake (5 * i / 8) (by omega)) hn

/-! ## No slip is valid -/

theorem eq_of_zipWith_xor {xs ys : List UInt8} (hlength : xs.length = ys.length)
    (h : ∀ x ∈ List.zipWith (· ^^^ ·) xs ys, x = 0) : xs = ys := by
  induction xs generalizing ys with
  | nil => exact (List.length_eq_zero_iff.mp hlength.symm).symm
  | cons x xs ih =>
    cases ys with
    | nil => exact absurd hlength (by simp)
    | cons y ys =>
      rw [List.zipWith_cons_cons, List.forall_mem_cons] at h
      rw [UInt8.xor_eq_zero_iff.mp h.1, ih (Nat.succ.inj hlength) h.2]

/-- No slip leads from the values of one principal to those of another. -/
theorem eq_of_slip_values {xs ys : List UInt8} (hxs : xs.length ≤ maxBytes)
    (hlength : xs.length = ys.length) (h : Slip (values xs) (values ys)) : xs = ys := by
  obtain ⟨i, j, w, hw, hdifference⟩ := h.exists_zipWith_xor
  have hbytes : bytesOf (List.replicate i 0 ++ w ++ List.replicate j 0)
      = List.zipWith (· ^^^ ·) (checksum xs ++ xs) (checksum ys ++ ys) := by
    rw [← hdifference, Base32.bytesOf_zipWith, bytesOf_values, bytesOf_values]
  have hsame : (checksum xs ++ xs).length = (checksum ys ++ ys).length := by
    simp [length_checksum, hlength]
  have hzero : ∀ x ∈ List.zipWith (· ^^^ ·) (checksum xs ++ xs) (checksum ys ++ ys), x = 0 := by
    rw [← hbytes]
    refine eq_zero_of_unseen hw (hbytes ▸ unseen_zipWith hlength) ?_
    rw [hbytes]
    simp only [maxBytes] at hxs
    simp [length_checksum]
    omega
  exact (List.append_inj (eq_of_zipWith_xor hsame hzero) (by simp [length_checksum])).2

/-- The values of digits can be read off the digits. -/
theorem exists_value : ∃ g : CodePoint → Nat, ∀ vs : List Nat, (∀ n ∈ vs, n < 32) →
    (Text.ofChars (vs.map Base32.digit)).map g = vs := by
  have hinj : Set.InjOn (fun n ↦ CodePoint.char (Base32.digit n)) {n | n < 32} :=
    fun m hm n hn h ↦ Base32.digit_inj m hm n hn (CodePoint.char.inj h)
  refine ⟨Function.invFunOn (fun n ↦ CodePoint.char (Base32.digit n)) {n | n < 32},
    fun vs hvs ↦ ?_⟩
  rw [Text.ofChars, List.map_map, List.map_map, List.map_congr_left, List.map_id]
  exact fun n hn ↦ hinj.leftInvOn_invFunOn (hvs n hn)

/-- A slip between the texts of two principals is one in their values. -/
theorem slip_values {xs ys : List UInt8} (h : Slip (format xs) (format ys)) :
    Slip (values xs) (values ys) ∨ values ys = values xs := by
  have hlength : ((format ys).filter (· ≠ CodePoint.char '-')).length
      = ((format xs).filter (· ≠ CodePoint.char '-')).length := by
    -- the length of a text tells how many of its characters are dashes
    have hformat := h.length_eq
    rw [length_format, length_format] at hformat
    rw [filter_format, filter_format]
    simp only [Text.ofChars, List.length_map]
    omega
  obtain ⟨g, hg⟩ := exists_value
  have hmap : ∀ zs, ((format zs).filter (· ≠ CodePoint.char '-')).map g = values zs := by
    intro zs
    rw [filter_format]
    exact hg (values zs) fun n ↦ lt_of_mem_values
  rw [← hmap xs, ← hmap ys]
  exact (h.filter hlength).imp (Slip.map g) (congrArg (List.map g))

/-- **A slip shows.** One character replaced by another, wherever it stands and whatever it is, or
two neighbours swapped: what that makes of a valid text is not valid, unless it is the same text. -/
theorem not_isValid_of_slip {text text' : Text} (h : isValid text = true) (hslip : Slip text text')
    (hne : text' ≠ text) : isValid text' = false := by
  rw [← Bool.not_eq_true]
  intro h'
  obtain ⟨xs, hxs, rfl⟩ := isValid_iff.mp h
  obtain ⟨ys, hys, rfl⟩ := isValid_iff.mp h'
  have hlength : xs.length = ys.length := by
    have hformat := hslip.length_eq
    rw [length_format, length_format, length_values, length_values] at hformat
    omega
  have heq : xs = ys := by
    rcases slip_values hslip with hvalues | hvalues
    · exact eq_of_slip_values hxs hlength hvalues
    · have hbytes := congrArg bytesOf hvalues
      rw [bytesOf_values, bytesOf_values] at hbytes
      exact (List.append_inj hbytes (by simp [length_checksum])).2.symm
  exact hne (congrArg format heq.symm)

theorem not_isValid_swapped_canister :
    isValid "rrkah-fqaaa-aaaaa-aaaaq-cai" = true ∧
      isValid "rrkah-qfaaa-aaaaa-aaaaq-cai" = false := by
  have hvalid : isValid "rrkah-fqaaa-aaaaa-aaaaq-cai" = true := by decide +kernel
  have hslip : Slip (Text.ofString "rrkah-fqaaa-aaaaa-aaaaq-cai") "rrkah-qfaaa-aaaaa-aaaaq-cai" :=
    .swap (Text.ofString "rrkah-") "aaa-aaaaa-aaaaq-cai" (CodePoint.char 'f') (CodePoint.char 'q')
  exact ⟨hvalid, not_isValid_of_slip hvalid hslip (by decide)⟩

end Principal

end AgentFlow
