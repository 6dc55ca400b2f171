import AgentFlow.Principal.Basic
import AgentFlow.Proofs.Principal.Base32

/-!
# Principals and their texts

A principal and its text determine each other. Writing is undone by reading: the dashes go, what is
left is read as Base32, and the first four bytes are the checksum of the others (`parse_format`).
And whatever is read writes the text that was read, since reading ends with that very comparison. So
a text has at most one principal, a principal one text, and no other spelling of it gets through,
whatever upper case, padding or bits that are left over might make of it (`parse_eq_ok_iff`).
-/

namespace AgentFlow

namespace Principal

/-! ## Dashes -/

theorem filter_dashed {cs : List Char} (h : ∀ c ∈ cs, c ≠ '-') :
    (dashed cs).filter (· ≠ '-') = cs := by
  fun_induction dashed cs with
  | case1 a b c d e f rest ih =>
    simp only [List.forall_mem_cons] at h
    obtain ⟨ha, hb, hc, hd, he, hrest⟩ := h
    simpa [ha, hb, hc, hd, he] using ih (List.forall_mem_cons.mpr hrest)
  | case2 rest => exact List.filter_eq_self.mpr fun c hc ↦ decide_eq_true (h c hc)

theorem length_dashed (cs : List Char) :
    (dashed cs).length = cs.length + (cs.length - 1) / 5 := by
  fun_induction dashed cs with
  | case1 a b c d e f rest ih =>
    simp only [List.length_cons] at ih ⊢
    omega
  | case2 rest hrest =>
    match rest, hrest with
    | [], _ | [_], _ | [_, _], _ | [_, _, _], _ | [_, _, _, _], _ | [_, _, _, _, _], _ => simp
    | a :: b :: c :: d :: e :: f :: rest, hrest => exact absurd rfl (hrest a b c d e f rest)

/-! ## Writing -/

theorem length_checksum (bytes : List UInt8) : (checksum bytes).length = 4 := by
  simp [checksum, Sha256.bigEndian]

/-- The values of the digits in the text of a principal. -/
def values (bytes : List UInt8) : List Nat := Base32.valuesOf (checksum bytes ++ bytes)

theorem lt_of_mem_values {bytes : List UInt8} {n : Nat} (hn : n ∈ values bytes) : n < 32 :=
  Base32.lt_of_mem_valuesOf hn

theorem length_values (bytes : List UInt8) :
    (values bytes).length = (8 * (bytes.length + 4) + 4) / 5 := by
  rw [values, Base32.length_valuesOf, List.length_append, length_checksum, Nat.add_comm 4]

theorem bytesOf_values (bytes : List UInt8) :
    Base32.bytesOf (values bytes) = checksum bytes ++ bytes :=
  Base32.bytesOf_valuesOf _

/-- Without its dashes, the text of a principal is that of its values. -/
theorem filter_formatChars (bytes : List UInt8) :
    (formatChars bytes).filter (· ≠ '-') = (values bytes).map Base32.digit := by
  rw [formatChars, Base32.encode_eq]
  refine filter_dashed fun c hc ↦ ?_
  obtain ⟨n, hn, rfl⟩ := List.mem_map.mp hc
  exact Base32.digit_ne_dash n (lt_of_mem_values hn)

theorem filter_format (bytes : List UInt8) :
    (format bytes).filter (· ≠ CodePoint.char '-')
      = Text.ofChars ((values bytes).map Base32.digit) := by
  rw [← filter_formatChars, format, Text.ofChars, Text.ofChars, List.filter_map]
  simp [Function.comp_def]

theorem length_format (bytes : List UInt8) :
    (format bytes).length = (values bytes).length + ((values bytes).length - 1) / 5 := by
  rw [format, Text.ofChars, List.length_map, formatChars, Base32.encode_eq, length_dashed,
    List.length_map]
  rfl

theorem format_ne_empty (bytes : List UInt8) : format bytes ≠ "" := by
  intro h
  have hlength := length_format bytes
  rw [h, length_values] at hlength
  have : (Text.ofString "").length = 0 := rfl
  omega

/-! ## Reading -/

/-- **Reading undoes writing.** -/
theorem parse_format {bytes : List UInt8} (h : bytes.length ≤ maxBytes) :
    parse (format bytes) = .ok bytes := by
  have hdecode : (Text.chars? ((format bytes).filter (· ≠ CodePoint.char '-'))).bind
      Base32.decode? = some (checksum bytes ++ bytes) := by
    rw [filter_format, Text.chars?_ofChars, Option.bind_some]
    exact Base32.decode?_encode (checksum bytes ++ bytes)
  have hdrop : (checksum bytes ++ bytes).drop 4 = bytes :=
    List.drop_left' (length_checksum bytes)
  have htake : (checksum bytes ++ bytes).take 4 = checksum bytes :=
    List.take_left' (length_checksum bytes)
  have hlength : ¬(checksum bytes ++ bytes).length < 4 := by
    rw [List.length_append, length_checksum]
    omega
  rw [parse, if_neg (format_ne_empty bytes), hdecode]
  simp only [if_neg hlength, hdrop, htake, if_neg (Nat.not_lt.mpr h), ne_eq, not_true, if_false]

/-- What is read is short enough, and its text is the one that was read. -/
theorem eq_format_of_parse {text : Text} {bytes : List UInt8} (h : parse text = .ok bytes) :
    bytes.length ≤ maxBytes ∧ text = format bytes := by
  rw [parse] at h
  split at h
  · exact absurd h (by simp)
  split at h
  · exact absurd h (by simp)
  next decoded _ =>
    -- all checks but the first and the last but one bear on the result
    dsimp only at h
    split at h
    · exact absurd h (by simp)
    split at h
    · exact absurd h (by simp)
    next hlength =>
      split at h
      · exact absurd h (by simp)
      split at h
      · exact absurd h (by simp)
      next hformat =>
        obtain rfl := Except.ok.inj h
        exact ⟨Nat.not_lt.mp hlength, (not_not.mp hformat).symm⟩

theorem parse_eq_ok_iff {text : Text} {bytes : List UInt8} :
    parse text = .ok bytes ↔ bytes.length ≤ maxBytes ∧ text = format bytes := by
  constructor
  · exact eq_format_of_parse
  · rintro ⟨h, rfl⟩
    exact parse_format h

theorem isValid_iff {text : Text} :
    isValid text ↔ ∃ bytes : List UInt8, bytes.length ≤ maxBytes ∧ text = format bytes := by
  simp only [← parse_eq_ok_iff]
  rw [isValid]
  cases parse text with
  | error fault => simp [Except.isOk, Except.toBool]
  | ok bytes => simp [Except.isOk, Except.toBool]

/-! ## The codec in full -/

/-- **Principals and their texts are in bijection.** A text is read as some bytes exactly if these
are at most twenty-nine and it is their text, and every other text is refused for a reason. So
reading undoes writing, writing undoes reading, and the valid texts are those of principals. -/
theorem parse_format_bijective :
    (∀ (text : Text) (bytes : List UInt8),
      parse text = .ok bytes ↔ bytes.length ≤ 29 ∧ text = format bytes) ∧
    (∀ text : Text, (∀ bytes : List UInt8, bytes.length ≤ 29 → text ≠ format bytes) →
      ∃ fault, parse text = .error fault) ∧
    (∀ bytes : List UInt8, bytes.length ≤ 29 → parse (format bytes) = .ok bytes) ∧
    (∀ (text : Text) (bytes : List UInt8), parse text = .ok bytes → format bytes = text) ∧
    ∀ text : Text, isValid text = true ↔ text ∈ format '' {bytes | bytes.length ≤ 29} := by
  refine ⟨fun _ _ ↦ parse_eq_ok_iff, fun text htext ↦ ?_, fun _ ↦ parse_format,
    fun _ _ hparse ↦ (eq_format_of_parse hparse).2.symm, fun text ↦ ?_⟩
  · cases hparse : parse text with
    | error fault => exact ⟨fault, rfl⟩
    | ok bytes =>
      obtain ⟨hlength, hformat⟩ := eq_format_of_parse hparse
      exact absurd hformat (htext bytes hlength)
  · rw [isValid_iff]
    exact exists_congr fun bytes ↦ and_congr_right fun _ ↦ eq_comm

theorem parse_canister :
    parse "rrkah-fqaaa-aaaaa-aaaaq-cai" = .ok [0, 0, 0, 0, 0, 0, 0, 1, 1, 1] :=
  (parse_format_bijective.1 _ _).mpr ⟨by decide, by decide +kernel⟩

end Principal

end AgentFlow
