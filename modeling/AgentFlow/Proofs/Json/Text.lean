import AgentFlow.Json.Parser
import AgentFlow.Json.Printer
import AgentFlow.Proofs.Text.Run
import Mathlib.Data.List.Chain
import Mathlib.Tactic.SplitIfs

/-!
# Reading texts that were written

Each code point of a text is written by itself and read back by itself
(`Json.readPoint?_escapeJson`), with one exception. Where only ASCII may be written, halves of
surrogate pairs are escaped, and two halves that stand alone one after the other would be read as
the pair that they make. A text without such neighbours (`Json.Unpaired`) is read back as a whole
(`Json.readText?_flatMap`). Where halves are written as they are, every text is.
-/

namespace AgentFlow

open CodePoint (char)

namespace Json

/-! ## Units -/

theorem hexValue?_hexDigit : ∀ d < 16, hexValue? (hexDigit d) = some d := by decide

theorem readUnit?_hexDigits {n : Nat} (hn : n < 0x10000) (t : Text) :
    readUnit? (Text.ofChars (hexDigits 4 n) ++ t) = some (n, t) := by
  have hdigit : ∀ i, hexValue? (hexDigit (n / Nat.pow 16 i % 16)) = some (n / Nat.pow 16 i % 16) :=
    fun i ↦ hexValue?_hexDigit _ (Nat.mod_lt _ (by decide))
  have hunit : (((n / Nat.pow 16 3 % 16) * 16 + n / Nat.pow 16 2 % 16) * 16
      + n / Nat.pow 16 1 % 16) * 16 + n / Nat.pow 16 0 % 16 = n := by
    simp only [Nat.pow_eq, Nat.reducePow]
    omega
  have hdigits : hexDigits 4 n
      = [hexDigit (n / Nat.pow 16 3 % 16), hexDigit (n / Nat.pow 16 2 % 16),
    hexDigit (n / Nat.pow 16 1 % 16), hexDigit (n / Nat.pow 16 0 % 16)] := rfl
  simp only [hdigits, Text.ofChars, List.map_cons, List.map_nil, List.cons_append, List.nil_append,
    readUnit?, hdigit, Option.bind_eq_bind, Option.bind_some, hunit]

theorem ofChars_escapeUnit (n : Nat) (t : Text) :
    Text.ofChars (escapeUnit n) ++ t
      = char '\\' :: char 'u' :: (Text.ofChars (hexDigits 4 n) ++ t) := rfl

theorem readNumbered?_unit {n : Nat} (hn : n < 0x10000) {t : Text}
    (ht : isHighSurrogate n → readLow? t = none) :
    readNumbered? (Text.ofChars (hexDigits 4 n) ++ t) = some (.ofNat n, t) := by
  have hlow : (if isHighSurrogate n then readLow? t else none) = none := by
    split
    next h => exact ht h
    next => rfl
  simp only [readNumbered?, readUnit?_hexDigits hn, Option.bind_eq_bind, Option.bind_some, hlow]

theorem readLow?_unit {n : Nat} (hn : n < 0x10000) (t : Text) :
    readLow? (Text.ofChars (escapeUnit n) ++ t)
      = if isLowSurrogate n then some (n, t) else none := by
  rw [ofChars_escapeUnit, readLow?, readUnit?_hexDigits hn, Option.filter_some]

theorem readNumbered?_pair {high low : Nat} (hhigh : isHighSurrogate high)
    (hlow : isLowSurrogate low) (t : Text) :
    readNumbered? (Text.ofChars (hexDigits 4 high) ++ (Text.ofChars (escapeUnit low) ++ t))
      = some (.ofNat (pairCode high low), t) := by
  have hhigh' : high < 0x10000 := by
    simp only [isHighSurrogate, Bool.and_eq_true, decide_eq_true_iff] at hhigh
    omega
  have hlow' : low < 0x10000 := by
    simp only [isLowSurrogate, Bool.and_eq_true, decide_eq_true_iff] at hlow
    omega
  simp only [readNumbered?, readUnit?_hexDigits hhigh', Option.bind_eq_bind, Option.bind_some,
    hhigh, if_true, readLow?_unit hlow', hlow]

theorem pairCode_split (m : Nat) :
    pairCode (0xD800 + m / 0x400) (0xDC00 + m % 0x400) = 0x10000 + m := by
  unfold pairCode
  omega

/-! ## Code points -/

theorem readPoint?_code {n : Nat} (hn : n < 0x110000) {t : Text}
    (ht : isHighSurrogate n → readLow? t = none) :
    readPoint? (Text.ofChars (escapeCode n) ++ t) = some (.ofNat n, t) := by
  rw [escapeCode]
  split
  next hunit =>
    rw [ofChars_escapeUnit, readPoint?, readNumbered?_unit hunit ht]
  next hpair =>
    have hhigh : isHighSurrogate (0xD800 + (n - 0x10000) / 0x400) := by
      simp only [isHighSurrogate, Bool.and_eq_true, decide_eq_true_iff]
      omega
    have hlow : isLowSurrogate (0xDC00 + (n - 0x10000) % 0x400) := by
      simp only [isLowSurrogate, Bool.and_eq_true, decide_eq_true_iff]
      omega
    have hcode : 0x10000 + (n - 0x10000) = n := by omega
    rw [Text.ofChars_append, List.append_assoc, ofChars_escapeUnit, readPoint?,
      readNumbered?_pair hhigh hlow, pairCode_split, hcode]

theorem readPoint?_plain {c : CodePoint} (hquote : c ≠ char '"') (hbackslash : c ≠ char '\\')
    (hcontrol : ¬c.toNat < 0x20) (t : Text) : readPoint? (c :: t) = some (c, t) := by
  rw [readPoint?, if_neg]
  · simp [hquote, hbackslash, hcontrol]
  · exact fun _ h _ ↦ hbackslash h
  · exact fun _ _ h _ ↦ hbackslash h

theorem toNat_lt (c : CodePoint) : c.toNat < 0x110000 := by
  cases c with
  | char c =>
    have valid : c.toNat < 0xD800 ∨ 0xDFFF < c.toNat ∧ c.toNat < 0x110000 := c.valid
    simp only [CodePoint.toNat]
    omega
  | half place =>
    simp only [CodePoint.toNat, CodePoint.firstHalf]
    omega

theorem readPoint?_escapeJson {asciiOnly : Bool} {c : CodePoint} {t : Text}
    (ht : asciiOnly → isHighSurrogate c.toNat → readLow? t = none) :
    readPoint? (escapeJson asciiOnly c ++ t) = some (c, t) := by
  rw [escapeJson]
  split_ifs with hquote hbackslash hfeed hreturn htab hback hform hcode
  · rw [hquote]; rfl
  · rw [hbackslash]; rfl
  · rw [hfeed]; rfl
  · rw [hreturn]; rfl
  · rw [htab]; rfl
  · rw [hback]; rfl
  · rw [hform]; rfl
  · rw [readPoint?_code (toNat_lt c), CodePoint.ofNat_toNat]
    intro hhigh
    refine ht ?_ hhigh
    rcases hcode with hcontrol | hcode
    · simp only [isHighSurrogate, Bool.and_eq_true, decide_eq_true_iff] at hhigh
      omega
    · exact hcode.1
  · exact readPoint?_plain hquote hbackslash (fun h ↦ hcode (.inl h)) t

theorem readLow?_escapeJson {asciiOnly : Bool} {c : CodePoint}
    (hc : ¬isLowSurrogate c.toNat) (t : Text) : readLow? (escapeJson asciiOnly c ++ t) = none := by
  rw [escapeJson]
  split_ifs with hquote hbackslash
  · rfl
  · rfl
  · rfl
  · rfl
  · rfl
  · rfl
  · rfl
  · rw [escapeCode]
    split
    next hunit => rw [readLow?_unit hunit, if_neg hc]
    next =>
      have hhigh : ¬isLowSurrogate (0xD800 + (c.toNat - 0x10000) / 0x400) := by
        have hlt := toNat_lt c
        simp only [isLowSurrogate, Bool.and_eq_true, decide_eq_true_iff]
        omega
      have hlt := toNat_lt c
      rw [Text.ofChars_append, List.append_assoc, readLow?_unit (by omega), if_neg hhigh]
  · rw [List.singleton_append, readLow?]
    exact fun _ h ↦ hbackslash (List.cons.inj h).1

/-! ## Texts -/

/-- Whether no half that opens a surrogate pair stands in front of one that closes a pair. Escaped,
the two would be read as one character. -/
def Unpaired (t : Text) : Prop :=
  t.IsChain fun a b ↦ ¬(isHighSurrogate a.toNat ∧ isLowSurrogate b.toNat)

theorem readLow?_rest {asciiOnly : Bool} {c : CodePoint} {t : Text} (ht : Unpaired (c :: t))
    (hc : isHighSurrogate c.toNat) (rest : Text) :
    readLow? (t.flatMap (escapeJson asciiOnly) ++ char '"' :: rest) = none := by
  cases t with
  | nil => rfl
  | cons b t =>
    have hb : ¬isLowSurrogate b.toNat := fun hb ↦ (List.isChain_cons_cons.mp ht).1 ⟨hc, hb⟩
    rw [List.flatMap_cons, List.append_assoc]
    exact readLow?_escapeJson hb _

theorem escapeJson_ne_nil (asciiOnly : Bool) (c : CodePoint) : escapeJson asciiOnly c ≠ [] := by
  rw [escapeJson]
  split_ifs <;> simp [Text.ofChars, escapeCode, escapeUnit]
  split <;> simp

theorem readText?_of_readPoint? {fuel : Nat} {c : CodePoint} {t u : Text}
    (h : readPoint? t = some (c, u)) :
    readText? (fuel + 1) t = (readText? fuel u).map fun r ↦ (c :: r.1, r.2) := by
  have hquote : ∀ v, t ≠ char '"' :: v := by
    rintro v rfl
    exact absurd h (by simp [readPoint?])
  rw [readText?, h, Option.bind_eq_bind, Option.bind_some]
  · dsimp only
    cases readText? fuel u <;> rfl
  · exact hquote

/-- **A text that was written is read back**, with whatever follows it left over. -/
theorem readText?_flatMap {asciiOnly : Bool} {fuel : Nat} {t rest : Text}
    (ht : asciiOnly → Unpaired t)
    (hfuel : (t.flatMap (escapeJson asciiOnly) ++ char '"' :: rest).length ≤ fuel) :
    readText? fuel (t.flatMap (escapeJson asciiOnly) ++ char '"' :: rest) = some (t, rest) := by
  induction t generalizing fuel with
  | nil =>
    obtain ⟨k, rfl⟩ := Nat.exists_eq_add_of_le' (Nat.one_le_of_lt hfuel)
    rfl
  | cons c t ih =>
    have hpoint : readPoint? (escapeJson asciiOnly c ++
        (t.flatMap (escapeJson asciiOnly) ++ char '"' :: rest))
        = some (c, t.flatMap (escapeJson asciiOnly) ++ char '"' :: rest) :=
      readPoint?_escapeJson fun hascii hhigh ↦ readLow?_rest (ht hascii) hhigh rest
    have hlength := List.length_pos_iff.mpr (escapeJson_ne_nil asciiOnly c)
    rw [List.flatMap_cons, List.append_assoc] at hfuel ⊢
    rw [List.length_append] at hfuel
    obtain ⟨k, rfl⟩ := Nat.exists_eq_add_of_le' (show 1 ≤ fuel by omega)
    have hrest : readText? k (t.flatMap (escapeJson asciiOnly) ++ char '"' :: rest)
        = some (t, rest) := ih (fun hascii ↦ (ht hascii).tail) (by omega)
    rw [readText?_of_readPoint? hpoint, hrest]
    rfl

end Json

end AgentFlow
