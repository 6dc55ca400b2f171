import AgentFlow.Principal.Base32
import AgentFlow.Proofs.Blocks
import Mathlib.Data.List.DropRight
import Mathlib.Data.Nat.Bitwise

/-!
# What Base32 keeps

Between bytes and digits stand the values of the digits. Bytes have values (`valuesOf`) and values
have bytes (`bytesOf`), both by way of the bits, and the bytes of the values of bytes are these
bytes again at every length (`bytesOf_valuesOf`), since the zeros that fill up the last value are
less than a byte. Reading a text that was written gives its bytes (`decode?_encode`): the padding
that such a text lacks is always one of the five that are allowed.

Two more facts about `bytesOf` serve the comparison of texts. It is linear: the bytes of the
differences of two lists of values are the differences of their bytes (`bytesOf_zipWith`). And it is
local: the bytes at the start come from the values there, and values that are zero up to the end
give bytes that are zero there (`take_bytesOf`, `drop_bytesOf`).
-/

namespace AgentFlow

namespace Base32

/-! ## Bits of numbers -/

@[simp] theorem length_bits (width n : Nat) : (bits width n).length = width := by simp [bits]

theorem bits_zero (width : Nat) : bits width 0 = List.replicate width false := by
  simp [bits, List.map_const']

theorem bits_succ (width n : Nat) : bits (width + 1) n = bits width (n / 2) ++ [n.testBit 0] := by
  simp [bits, List.range_succ_eq_map, Function.comp_def, Nat.testBit_succ]

theorem ofBits_concat (bs : List Bool) (b : Bool) :
    ofBits (bs ++ [b]) = 2 * ofBits bs + b.toNat := by
  simp [ofBits]

theorem bits_ofBits (bs : List Bool) : bits bs.length (ofBits bs) = bs := by
  induction bs using List.reverseRecOn with
  | nil => rfl
  | append_singleton bs b ih =>
    have hhalf : (2 * ofBits bs + b.toNat) / 2 = ofBits bs := by cases b <;> simp; omega
    have hlast : (2 * ofBits bs + b.toNat).testBit 0 = b := by cases b <;> simp
    rw [List.length_append, List.length_singleton, bits_succ, ofBits_concat, hhalf, hlast, ih]

theorem ofBits_bits (width n : Nat) : ofBits (bits width n) = n % 2 ^ width := by
  induction width generalizing n with
  | zero => simp [bits, ofBits, Nat.mod_one]
  | succ width ih =>
    have hlast : (n.testBit 0).toNat = n % 2 := by
      rw [Nat.testBit_zero]
      rcases Nat.mod_two_eq_zero_or_one n with h | h <;> rw [h] <;> rfl
    rw [bits_succ, ofBits_concat, ih, hlast, Nat.pow_succ', Nat.mod_mul, Nat.add_comm]

/-! ## Groups of five -/

theorem length_groupsOfFive (bs : List Bool) : (groupsOfFive bs).length = (bs.length + 4) / 5 := by
  fun_induction groupsOfFive bs with
  | case1 a b c d e rest ih =>
    simp only [List.length_cons, ih]
    omega
  | case2 | case3 | case4 | case5 | case6 => simp

theorem lt_of_mem_groupsOfFive {bs : List Bool} {n : Nat} (hn : n ∈ groupsOfFive bs) : n < 32 := by
  have hlt : ∀ a b c d e, ofBits [a, b, c, d, e] < 32 := by decide
  fun_induction groupsOfFive bs with
  | case1 a b c d e rest ih =>
    rcases List.mem_cons.mp hn with rfl | hn
    · exact hlt a b c d e
    · exact ih hn
  | case2 => exact absurd hn List.not_mem_nil
  | case3 | case4 | case5 | case6 => exact List.mem_singleton.mp hn ▸ hlt _ _ _ _ _

/-- The groups hold the bits and a filling of less than five zeros. -/
theorem flatMap_bits_groupsOfFive (bs : List Bool) :
    ∃ k < 5, (groupsOfFive bs).flatMap (bits 5) = bs ++ List.replicate k false := by
  fun_induction groupsOfFive bs with
  | case1 a b c d e rest ih =>
    obtain ⟨k, hk, heq⟩ := ih
    refine ⟨k, hk, ?_⟩
    rw [List.flatMap_cons, heq]
    exact congrArg (· ++ (rest ++ List.replicate k false)) (bits_ofBits [a, b, c, d, e])
  | case2 => exact ⟨0, by decide, rfl⟩
  | case3 a => exact ⟨4, by decide, bits_ofBits [a, false, false, false, false]⟩
  | case4 a b => exact ⟨3, by decide, bits_ofBits [a, b, false, false, false]⟩
  | case5 a b c => exact ⟨2, by decide, bits_ofBits [a, b, c, false, false]⟩
  | case6 a b c d => exact ⟨1, by decide, bits_ofBits [a, b, c, d, false]⟩

/-! ## Whole bytes -/

theorem wholeBytes_append {w : List Bool} (hw : w.length = 8) (bs : List Bool) :
    wholeBytes (w ++ bs) = UInt8.ofNat (ofBits w) :: wholeBytes bs := by
  match w, hw with
  | [a, b, c, d, e, f, g, h], _ => rfl

theorem wholeBytes_of_le {bs : List Bool} (h : 8 ≤ bs.length) :
    wholeBytes bs = UInt8.ofNat (ofBits (bs.take 8)) :: wholeBytes (bs.drop 8) := by
  rw [← wholeBytes_append (List.length_take_of_le h), List.take_append_drop]

theorem wholeBytes_of_lt {bs : List Bool} (h : bs.length < 8) : wholeBytes bs = [] := by
  rw [wholeBytes]
  rintro a b c d e f g k rest rfl
  simp only [List.length_cons] at h
  omega

/-- Bytes and less than a byte besides. -/
theorem wholeBytes_flatMap (bytes : List UInt8) {rest : List Bool} (hrest : rest.length < 8) :
    wholeBytes ((bytes.flatMap fun b ↦ bits 8 b.toNat) ++ rest) = bytes := by
  induction bytes with
  | nil => exact wholeBytes_of_lt hrest
  | cons b bytes ih =>
    rw [List.flatMap_cons, List.append_assoc, wholeBytes_append (length_bits 8 _), ih, ofBits_bits,
      Nat.mod_eq_of_lt b.toNat_lt, UInt8.ofNat_toNat]

theorem wholeBytes_take (bs : List Bool) (k : Nat) :
    wholeBytes (bs.take (8 * k)) = (wholeBytes bs).take k := by
  induction k generalizing bs with
  | zero => exact wholeBytes_of_lt (by simp)
  | succ k ih =>
    rcases Nat.lt_or_ge bs.length 8 with h | h
    · rw [wholeBytes_of_lt h, List.take_nil, wholeBytes_of_lt (by simp; omega)]
    · have hle : 8 ≤ (bs.take (8 * (k + 1))).length := by simp; omega
      rw [wholeBytes_of_le hle, wholeBytes_of_le h, List.take_succ_cons, ← ih, List.take_take,
        List.drop_take]
      congr 4

theorem wholeBytes_drop (bs : List Bool) (k : Nat) :
    wholeBytes (bs.drop (8 * k)) = (wholeBytes bs).drop k := by
  induction k generalizing bs with
  | zero => rfl
  | succ k ih =>
    rcases Nat.lt_or_ge bs.length 8 with h | h
    · rw [wholeBytes_of_lt h, List.drop_nil, wholeBytes_of_lt (by simp; omega)]
    · rw [wholeBytes_of_le h, List.drop_succ_cons, ← ih, List.drop_drop]
      congr 2
      omega

theorem wholeBytes_replicate (n : Nat) :
    wholeBytes (List.replicate n false) = List.replicate (n / 8) 0 := by
  induction n using Nat.strong_induction_on with
  | _ n ih =>
    rcases Nat.lt_or_ge n 8 with h | h
    · rw [wholeBytes_of_lt (by simpa using h), Nat.div_eq_of_lt h, List.replicate_zero]
    · rw [wholeBytes_of_le (by simpa using h), List.take_replicate, List.drop_replicate,
        ih _ (by omega), Nat.min_eq_left h, show n / 8 = (n - 8) / 8 + 1 by omega,
        List.replicate_succ]
      rfl

/-! ## Differences -/

theorem ofBits_zipWith {bs cs : List Bool} (h : bs.length = cs.length) :
    ofBits (List.zipWith xor bs cs) = ofBits bs ^^^ ofBits cs := by
  have hstep : ∀ (m n : Nat) (b c : Bool),
      2 * (m ^^^ n) + (xor b c).toNat = (2 * m + b.toNat) ^^^ (2 * n + c.toNat) := by
    intro m n b c
    simpa [Nat.bit_val] using (Nat.xor_bit b m c n).symm
  suffices hfold : ∀ m n : Nat,
      (List.zipWith xor bs cs).foldl (fun n b ↦ 2 * n + b.toNat) (m ^^^ n)
        = bs.foldl (fun n b ↦ 2 * n + b.toNat) m ^^^ cs.foldl (fun n b ↦ 2 * n + b.toNat) n from
    hfold 0 0
  induction bs generalizing cs with
  | nil =>
    obtain rfl := List.length_eq_zero_iff.mp h.symm
    exact fun _ _ ↦ rfl
  | cons b bs ih =>
    cases cs with
    | nil => exact absurd h (by simp)
    | cons c cs =>
      intro m n
      rw [List.zipWith_cons_cons, List.foldl_cons, List.foldl_cons, List.foldl_cons, hstep]
      exact ih (Nat.succ.inj h) _ _

theorem bits_xor (width m n : Nat) :
    bits width (m ^^^ n) = List.zipWith xor (bits width m) (bits width n) := by
  rw [bits, bits, bits, ← List.reverse_zipWith (by simp), List.zipWith_map]
  simp [Nat.testBit_xor, List.zipWith_self]

theorem wholeBytes_zipWith (bs cs : List Bool) :
    wholeBytes (List.zipWith xor bs cs)
      = List.zipWith (· ^^^ ·) (wholeBytes bs) (wholeBytes cs) := by
  induction hn : bs.length using Nat.strong_induction_on generalizing bs cs with
  | _ n ih =>
    rcases Nat.lt_or_ge bs.length 8 with hb | hb
    · rw [wholeBytes_of_lt hb, List.zipWith_nil_left, wholeBytes_of_lt (by simp; omega)]
    rcases Nat.lt_or_ge cs.length 8 with hc | hc
    · rw [wholeBytes_of_lt hc, List.zipWith_nil_right, wholeBytes_of_lt (by simp; omega)]
    rw [wholeBytes_of_le hb, wholeBytes_of_le hc, List.zipWith_cons_cons,
      wholeBytes_of_le (by simp; omega), List.take_zipWith, List.drop_zipWith,
      ih _ (by simp; omega) _ _ rfl, ofBits_zipWith (by simp; omega), UInt8.ofNat_xor]

/-! ## Values and bytes -/

/-- The values of the digits of a run of bytes. -/
def valuesOf (bytes : List UInt8) : List Nat :=
  groupsOfFive (bytes.flatMap fun b ↦ bits 8 b.toNat)

/-- The bytes of a run of values. -/
def bytesOf (values : List Nat) : List UInt8 := wholeBytes (values.flatMap (bits 5))

theorem encode_eq (bytes : List UInt8) : encode bytes = (valuesOf bytes).map digit := rfl

theorem lt_of_mem_valuesOf {bytes : List UInt8} {n : Nat} (hn : n ∈ valuesOf bytes) : n < 32 :=
  lt_of_mem_groupsOfFive hn

theorem length_valuesOf (bytes : List UInt8) :
    (valuesOf bytes).length = (8 * bytes.length + 4) / 5 := by
  rw [valuesOf, length_groupsOfFive, length_flatMap_of_length fun _ ↦ length_bits 8 _]

theorem bytesOf_valuesOf (bytes : List UInt8) : bytesOf (valuesOf bytes) = bytes := by
  obtain ⟨k, hk, heq⟩ := flatMap_bits_groupsOfFive (bytes.flatMap fun b ↦ bits 8 b.toNat)
  rw [bytesOf, valuesOf, heq]
  exact wholeBytes_flatMap bytes (by simp; omega)

theorem length_flatMap_bits (values : List Nat) :
    (values.flatMap (bits 5)).length = 5 * values.length :=
  length_flatMap_of_length (length_bits 5) values

/-- Reading values as bytes is linear. -/
theorem bytesOf_zipWith (xs ys : List Nat) :
    bytesOf (List.zipWith (· ^^^ ·) xs ys) = List.zipWith (· ^^^ ·) (bytesOf xs) (bytesOf ys) := by
  rw [bytesOf, flatMap_zipWith (length_bits 5) (bits_xor 5), wholeBytes_zipWith]
  rfl

theorem bytesOf_replicate (n : Nat) :
    bytesOf (List.replicate n 0) = List.replicate (5 * n / 8) 0 := by
  rw [bytesOf, flatMap_replicate (bits_zero 5), wholeBytes_replicate]

/-- What is whole before other values stays as it is. -/
theorem take_bytesOf {xs : List Nat} {k : Nat} (h : 8 * k ≤ 5 * xs.length) (ys : List Nat) :
    (bytesOf (xs ++ ys)).take k = (bytesOf xs).take k := by
  rw [bytesOf, bytesOf, ← wholeBytes_take, ← wholeBytes_take, List.flatMap_append,
    List.take_append_of_le_length (h.trans_eq (length_flatMap_bits xs).symm)]

/-- Values that are zero up to the end give bytes that are. -/
theorem drop_bytesOf {xs : List Nat} {k : Nat} (h : 5 * xs.length ≤ 8 * k) (j : Nat) :
    ∃ n, (bytesOf (xs ++ List.replicate j 0)).drop k = List.replicate n 0 := by
  rw [bytesOf, ← wholeBytes_drop, List.flatMap_append, flatMap_replicate (bits_zero 5),
    List.drop_append, List.drop_eq_nil_of_le ((length_flatMap_bits xs).trans_le h),
    List.nil_append, List.drop_replicate, wholeBytes_replicate]
  exact ⟨_, rfl⟩

/-! ## Digits -/

/-- The digit of a value in upper case. -/
def capital (n : Nat) : Char :=
  if n < 26 then Char.ofNat ('A'.toNat + n) else Char.ofNat ('2'.toNat + (n - 26))

theorem upper?_digit : ∀ n < 32, upper? (digit n) = some [capital n] := by decide

theorem value?_capital : ∀ n < 32, value? (capital n) = some n := by decide

theorem capital_ne_pad : ∀ n < 32, capital n ≠ '=' := by decide

theorem digit_ne_dash : ∀ n < 32, digit n ≠ '-' := by decide

theorem digit_inj : ∀ m < 32, ∀ n < 32, digit m = digit n → m = n := by decide

/-! ## Reading -/

private theorem mapM_map_eq_some {α β γ : Type} {f : β → Option γ} {d : α → β} {g : α → γ}
    {l : List α} (h : ∀ a ∈ l, f (d a) = some (g a)) : (l.map d).mapM f = some (l.map g) := by
  induction l with
  | nil => rfl
  | cons a l ih =>
    rw [List.map_cons, List.mapM_cons, h a List.mem_cons_self,
      ih fun b hb ↦ h b (List.mem_cons_of_mem a hb)]
    rfl

/-- Padding can be taken off again. -/
private theorem reverse_dropWhile_pad {cs : List Char} (h : ∀ c ∈ cs, c ≠ '=') (k : Nat) :
    ((cs ++ List.replicate k '=').reverse.dropWhile (· = '=')).reverse = cs := by
  rw [List.reverse_append, List.reverse_replicate, List.dropWhile_append_of_pos (by simp),
    List.dropWhile_eq_self_iff.mpr, List.reverse_reverse]
  intro hlt
  simpa using h _ (List.mem_reverse.mp (List.getElem_mem hlt))

/-- What the text of whole bytes lacks is a padding that is allowed. -/
private theorem padding_length (n : Nat) :
    ((8 * n + 4) / 5 + padding ((8 * n + 4) / 5)) % 8 = 0 ∧
      padding ((8 * n + 4) / 5) ∈ [0, 1, 3, 4, 6] := by
  simp only [padding, List.mem_cons, List.not_mem_nil, or_false]
  omega

/-- **Reading what was written.** -/
theorem decode?_encode (bytes : List UInt8) : decode? (encode bytes) = some bytes := by
  have hlt : ∀ n ∈ valuesOf bytes, n < 32 := fun n ↦ lt_of_mem_valuesOf
  have hlength : (encode bytes).length = (8 * bytes.length + 4) / 5 := by
    rw [encode_eq, List.length_map, length_valuesOf]
  have hupper : (encode bytes).mapM upper? = some ((valuesOf bytes).map fun n ↦ [capital n]) :=
    mapM_map_eq_some fun n hn ↦ upper?_digit n (hlt n hn)
  have hflatten : ((valuesOf bytes).map fun n ↦ [capital n]).flatten
      = (valuesOf bytes).map capital := by
    rw [← List.flatMap_def, List.map_eq_flatMap]
  have hcapital : ∀ c ∈ (valuesOf bytes).map capital, c ≠ '=' := by
    simpa using fun n hn ↦ capital_ne_pad n (hlt n hn)
  have hvalue : ((valuesOf bytes).map capital).mapM value? = some (valuesOf bytes) := by
    rw [mapM_map_eq_some fun n hn ↦ value?_capital n (hlt n hn), List.map_id']
  have hpadding := padding_length bytes.length
  rw [decode?, hupper]
  simp only [Option.bind_eq_bind, Option.bind_some, hflatten, reverse_dropWhile_pad hcapital,
    hvalue]
  rw [if_neg]
  · exact congrArg some (bytesOf_valuesOf bytes)
  · have hpad : ((valuesOf bytes).map capital
        ++ List.replicate (padding (encode bytes).length) '=').length
          = (encode bytes).length + padding (encode bytes).length := by simp [encode_eq]
    have hrest : (encode bytes).length + padding (encode bytes).length
        - ((valuesOf bytes).map capital).length = padding (encode bytes).length := by
      simp [encode_eq]
    rw [not_or, not_not, not_not, hpad, hrest, hlength]
    exact hpadding

end Base32

end AgentFlow
