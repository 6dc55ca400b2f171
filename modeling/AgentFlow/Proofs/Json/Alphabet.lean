import AgentFlow.Proofs.Json.Text

/-!
# The code points of a written value

Outside of texts a value is written in printable ASCII characters and line feeds alone, and a text
in what its code points are escaped as. What holds of all these holds of every code point of a
written value (`Json.Covers.write`). Two consequences are used: no style writes a carriage return
(`Json.ne_return_of_mem_write`), so a file is read in the lines in which it was written, and where
only ASCII may be written no half of a surrogate pair is (`Json.isHalf_of_mem_write`), so nothing is
lost when the code points become characters.
-/

namespace AgentFlow

open CodePoint (char)

namespace Json

/-- Whether a character is a printable ASCII character. -/
def isGraphic (c : Char) : Bool := 0x20 ≤ c.toNat && c.toNat < 0x7F

/-! ## Numbers -/

theorem isGraphic_of_mem_decimalDigits {n : Nat} {c : Char} (h : c ∈ decimalDigits n) :
    isGraphic c := by
  have hdigit : c.isDigit := Nat.isDigit_of_mem_toDigits (by decide) (by decide) h
  have hcode : 0x30 ≤ c.toNat ∧ c.toNat ≤ 0x39 := by
    simpa [Char.isDigit, UInt32.le_iff_toNat_le] using hdigit
  simp only [isGraphic, Bool.and_eq_true, decide_eq_true_iff]
  omega

theorem isGraphic_of_mem_exponentText {e : Int} {c : Char} (h : c ∈ Decimal.exponentText e) :
    isGraphic c := by
  have hdigits : ∀ c ∈ decimalDigits e.natAbs, isGraphic c := fun c ↦
    isGraphic_of_mem_decimalDigits
  rw [Decimal.exponentText, List.mem_cons, List.mem_cons] at h
  obtain rfl | rfl | h := h
  · rfl
  · split <;> rfl
  · split at h
    next =>
      obtain rfl | h := List.mem_cons.mp h
      · rfl
      · exact hdigits c h
    next => exact hdigits c h

theorem isGraphic_of_mem_layout {ds : List Char} {e : Int} {c : Char}
    (hds : ∀ d ∈ ds, isGraphic d) (h : c ∈ Decimal.layout ds e) : isGraphic c := by
  have hzeros : ∀ k, ∀ d ∈ List.replicate k '0', isGraphic d := fun k d hd ↦
    List.eq_of_mem_replicate hd ▸ rfl
  have hpadded : ∀ k, ∀ d ∈ ds ++ List.replicate k '0', isGraphic d := fun k d hd ↦
    (List.mem_append.mp hd).elim (hds d) (hzeros k d)
  rw [Decimal.layout.eq_def] at h
  split at h
  next =>
    split at h
    next => exact List.mem_singleton.mp h ▸ rfl
    next d =>
      obtain rfl | h := List.mem_cons.mp h
      · exact hds c List.mem_cons_self
      · exact isGraphic_of_mem_exponentText h
    next d rest _ =>
      rw [List.cons_append, List.cons_append, List.mem_cons, List.mem_cons, List.mem_append] at h
      obtain rfl | rfl | h | h := h
      · exact hds c List.mem_cons_self
      · rfl
      · exact hds c (List.mem_cons_of_mem d h)
      · exact isGraphic_of_mem_exponentText h
  next =>
    split at h
    next =>
      rw [List.cons_append, List.cons_append, List.mem_cons, List.mem_cons, List.mem_append] at h
      obtain rfl | rfl | h | h := h
      · rfl
      · rfl
      · exact hzeros _ c h
      · exact hds c h
    next =>
      rw [List.mem_append, List.mem_cons] at h
      obtain h | rfl | h := h
      · exact hpadded _ c (List.mem_of_mem_take h)
      · rfl
      · split at h
        next => exact List.mem_singleton.mp h ▸ rfl
        next => exact hpadded _ c (List.mem_of_mem_drop h)

theorem isGraphic_of_mem_magnitudeText {r : Nat} {c : Char} (h : c ∈ Binary64.magnitudeText r) :
    isGraphic c := by
  rw [Binary64.magnitudeText] at h
  split at h
  next => exact List.all_eq_true.mp (by rfl) c h
  next =>
    refine isGraphic_of_mem_layout (fun d hd ↦ ?_) h
    have hdigits := (List.dropWhile_sublist _).mem (List.mem_reverse.mp hd)
    exact isGraphic_of_mem_decimalDigits (List.mem_reverse.mp hdigits)

theorem isGraphic_of_mem_intDigits {n : Int} {c : Char} (h : c ∈ intDigits n) : isGraphic c := by
  rw [intDigits] at h
  split at h
  next =>
    obtain rfl | h := List.mem_cons.mp h
    · rfl
    · exact isGraphic_of_mem_decimalDigits h
  next => exact isGraphic_of_mem_decimalDigits h

theorem isGraphic_of_mem_writeBinary64 {x : Binary64} {c : Char} (h : c ∈ writeBinary64 x) :
    isGraphic c := by
  match x with
  | .nan | .infinity true | .infinity false => exact List.all_eq_true.mp (by rfl) c h
  | .finite true r =>
    obtain rfl | h := List.mem_cons.mp h
    · rfl
    · exact isGraphic_of_mem_magnitudeText h
  | .finite false r => exact isGraphic_of_mem_magnitudeText h

/-! ## Values -/

/-- Whether a class has all code points that a style writes. -/
structure Covers (style : Style) (p : CodePoint → Prop) : Prop where
  graphic : ∀ c : Char, isGraphic c → p (char c)
  feed : p (char '\n')
  escape : ∀ c, ∀ d ∈ escapeJson style.asciiOnly c, p d

namespace Covers

variable {style : Style} {p : CodePoint → Prop}

theorem ofChars (h : Covers style p) (cs : List Char) (hcs : cs.all isGraphic) :
    ∀ c ∈ Text.ofChars cs, p c :=
  List.forall_mem_map.mpr fun c hc ↦ h.graphic c (List.all_eq_true.mp hcs c hc)

theorem gap (h : Covers style p) (k : Nat) : ∀ c ∈ style.gap k, p c := by
  rw [Style.gap]
  split
  next => exact nofun
  next =>
    refine List.forall_mem_cons.mpr ⟨h.feed, fun c hc ↦ ?_⟩
    exact List.eq_of_mem_replicate hc ▸ h.graphic ' ' rfl

/-- Before a gap stands a bracket, a brace or a comma. -/
theorem beforeGap (h : Covers style p) {c : Char} (hc : isGraphic c) (k : Nat) :
    ∀ d ∈ char c :: style.gap k, p d :=
  List.forall_mem_cons.mpr ⟨h.graphic c hc, h.gap k⟩

theorem separator (h : Covers style p) (k : Nat) : ∀ c ∈ style.separator k, p c := by
  rw [Style.separator]
  split
  next => exact h.ofChars [',', ' '] rfl
  next => exact h.beforeGap (c := ',') rfl k

theorem writeText (h : Covers style p) (t : Text) :
    ∀ c ∈ AgentFlow.writeText style.asciiOnly t, p c := by
  simp only [AgentFlow.writeText, List.cons_append, List.forall_mem_cons, List.forall_mem_append,
    List.forall_mem_flatMap]
  exact ⟨h.graphic '"' rfl, fun c _ ↦ h.escape c, h.graphic '"' rfl, nofun⟩

/-- Behind the key of a field stands its value. -/
theorem afterKey (h : Covers style p) {t : Text} (ht : ∀ c ∈ t, p c) :
    ∀ c ∈ char ':' :: char ' ' :: t, p c :=
  List.forall_mem_cons.mpr ⟨h.graphic ':' rfl, List.forall_mem_cons.mpr ⟨h.graphic ' ' rfl, ht⟩⟩

mutual

/-- **What a style writes** belongs to every class that has all it may write. -/
theorem write (h : Covers style p) (k : Nat) (v : Json) : ∀ c ∈ v.write style k, p c := by
  match v with
  | .null => exact h.ofChars ['n', 'u', 'l', 'l'] rfl
  | .bool b =>
    cases b with
    | true => exact h.ofChars ['t', 'r', 'u', 'e'] rfl
    | false => exact h.ofChars ['f', 'a', 'l', 's', 'e'] rfl
  | .int n => exact h.ofChars _ (List.all_eq_true.mpr fun c ↦ isGraphic_of_mem_intDigits)
  | .float x => exact h.ofChars _ (List.all_eq_true.mpr fun c ↦ isGraphic_of_mem_writeBinary64)
  | .string s => exact h.writeText s
  | .array [] => exact h.ofChars ['[', ']'] rfl
  | .array (v :: vs) =>
    rw [Json.write]
    iterate 4 rw [List.forall_mem_append]
    exact ⟨⟨⟨⟨h.beforeGap (c := '[') rfl _, h.write _ v⟩, h.writeItems _ vs⟩, h.gap _⟩,
      h.ofChars [']'] rfl⟩
  | .object [] => exact h.ofChars ['{', '}'] rfl
  | .object ((key, v) :: fields) =>
    rw [Json.write]
    iterate 5 rw [List.forall_mem_append]
    exact ⟨⟨⟨⟨⟨h.beforeGap (c := '{') rfl _, h.writeText key⟩, h.afterKey (h.write _ v)⟩,
      h.writeFields _ fields⟩, h.gap _⟩, h.ofChars ['}'] rfl⟩

theorem writeItems (h : Covers style p) (k : Nat) (vs : List Json) :
    ∀ c ∈ Json.writeItems style k vs, p c := by
  match vs with
  | [] => exact nofun
  | v :: vs =>
    rw [Json.writeItems, List.forall_mem_append, List.forall_mem_append]
    exact ⟨⟨h.separator k, h.write k v⟩, h.writeItems k vs⟩

theorem writeFields (h : Covers style p) (k : Nat) (fields : Fields) :
    ∀ c ∈ Json.writeFields style k fields, p c := by
  match fields with
  | [] => exact nofun
  | (key, v) :: fields =>
    rw [Json.writeFields]
    iterate 3 rw [List.forall_mem_append]
    exact ⟨⟨⟨h.separator k, h.writeText key⟩, h.afterKey (h.write k v)⟩, h.writeFields k fields⟩

end

end Covers

/-! ## What is never written -/

theorem isGraphic_hexDigit {d : Nat} (h : d < 16) : isGraphic (hexDigit d) := by
  revert d
  decide

theorem isGraphic_of_mem_escapeUnit {n : Nat} {c : Char} (h : c ∈ escapeUnit n) :
    isGraphic c := by
  rw [escapeUnit, List.mem_cons, List.mem_cons, hexDigits, List.mem_reverse, List.mem_map] at h
  obtain rfl | rfl | ⟨i, -, rfl⟩ := h
  · rfl
  · rfl
  · exact isGraphic_hexDigit (Nat.mod_lt _ (by decide))

theorem isGraphic_of_mem_escapeCode {n : Nat} {c : Char} (h : c ∈ escapeCode n) :
    isGraphic c := by
  rw [escapeCode] at h
  split at h
  next => exact isGraphic_of_mem_escapeUnit h
  next => exact (List.mem_append.mp h).elim isGraphic_of_mem_escapeUnit isGraphic_of_mem_escapeUnit

/-- A code point is escaped in printable ASCII characters, or it is past the control characters and
written as it is. -/
theorem mem_escapeJson {asciiOnly : Bool} {c d : CodePoint} (h : d ∈ escapeJson asciiOnly c) :
    (∃ e : Char, isGraphic e ∧ d = char e) ∨
      d = c ∧ 0x20 ≤ c.toNat ∧ (asciiOnly → c.toNat < 0x7F) := by
  have hpair : ∀ a b : Char, isGraphic a → isGraphic b → d ∈ [char a, char b] →
      ∃ e : Char, isGraphic e ∧ d = char e := by
    intro a b ha hb hd
    obtain rfl | rfl := List.mem_pair.mp hd
    · exact ⟨a, ha, rfl⟩
    · exact ⟨b, hb, rfl⟩
  rw [escapeJson] at h
  split_ifs at h with _ _ _ _ _ _ _ hcode
  · exact .inl (hpair _ _ rfl rfl h)
  · exact .inl (hpair _ _ rfl rfl h)
  · exact .inl (hpair _ _ rfl rfl h)
  · exact .inl (hpair _ _ rfl rfl h)
  · exact .inl (hpair _ _ rfl rfl h)
  · exact .inl (hpair _ _ rfl rfl h)
  · exact .inl (hpair _ _ rfl rfl h)
  · obtain ⟨e, he, rfl⟩ := List.mem_map.mp h
    exact .inl ⟨e, isGraphic_of_mem_escapeCode he, rfl⟩
  · rw [not_or, not_and, Nat.not_lt, Nat.not_le] at hcode
    exact .inr ⟨List.mem_singleton.mp h, hcode⟩

/-- No style writes a carriage return. -/
theorem ne_return_of_mem_write {style : Style} {k : Nat} {v : Json} {c : CodePoint}
    (hc : c ∈ v.write style k) : c ≠ char '\r' := by
  have hgraphic : ∀ d : Char, isGraphic d → char d ≠ char '\r' := by
    rintro d hd hreturn
    rw [CodePoint.char.inj hreturn] at hd
    exact absurd hd (by decide)
  have hcovers : Covers style fun c ↦ c ≠ char '\r' := by
    refine ⟨hgraphic, by decide, fun d e he ↦ ?_⟩
    obtain ⟨e, hplain, rfl⟩ | ⟨rfl, hcode, -⟩ := mem_escapeJson he
    · exact hgraphic e hplain
    · rintro rfl
      exact absurd hcode (by decide)
  exact hcovers.write k v c hc

/-- In ASCII no half of a surrogate pair is written. -/
theorem isHalf_of_mem_write {style : Style} (hstyle : style.asciiOnly) {k : Nat} {v : Json}
    {c : CodePoint} (hc : c ∈ v.write style k) : c.isHalf = false := by
  have hcovers : Covers style fun c ↦ c.isHalf = false := by
    refine ⟨fun _ _ ↦ rfl, rfl, fun d e he ↦ ?_⟩
    obtain ⟨e, -, rfl⟩ | ⟨rfl, -, hcode⟩ := mem_escapeJson he
    · rfl
    · cases e with
      | char => rfl
      | half place =>
        have hlt := hcode hstyle
        simp only [CodePoint.toNat, CodePoint.firstHalf] at hlt
        omega
  exact hcovers.write k v c hc

end Json

end AgentFlow
