import AgentFlow.Proofs.Json.Alphabet
import AgentFlow.Proofs.Json.Height

/-!
# Values in ASCII

Where only ASCII is written, two halves of a surrogate pair that meet in a text are escaped like the
character that they make. `Json.joinHalves` puts that character in their place. Nothing else is
lost: two values that repeat no keys and whose keys can be encoded (`Json.WellKeyed`) have the same
line in ASCII exactly if they are the same once the halves in their texts are joined
(`Json.asciiLine_eq_iff`).
-/

namespace AgentFlow

open CodePoint (char)

namespace Json

/-! ## Halves that meet -/

/-- The text in which every two halves that meet are the character that they make. -/
def joinHalves : Text → Text
  | a :: b :: t =>
    if isHighSurrogate a.toNat ∧ isLowSurrogate b.toNat then
      .ofNat (pairCode a.toNat b.toNat) :: joinHalves t
    else a :: joinHalves (b :: t)
  | t => t

section Halves

variable {a b : CodePoint}

theorem toNat_ofNat_pairCode (ha : isHighSurrogate a.toNat) (hb : isLowSurrogate b.toNat) :
    (CodePoint.ofNat (pairCode a.toNat b.toNat)).toNat = pairCode a.toNat b.toNat := by
  simp only [isHighSurrogate, isLowSurrogate, Bool.and_eq_true, decide_eq_true_iff] at ha hb
  have hvalid : (pairCode a.toNat b.toNat).isValidChar := by
    unfold pairCode Nat.isValidChar
    omega
  -- it is past the basic plane, so it is no half itself
  have houtside : ¬(pairCode a.toNat b.toNat - CodePoint.firstHalf < 0x800 ∧
      CodePoint.firstHalf ≤ pairCode a.toNat b.toNat) := by
    unfold pairCode CodePoint.firstHalf
    omega
  rw [CodePoint.ofNat, dif_neg houtside, CodePoint.toNat, Char.ofNat, dif_pos hvalid]
  rfl

theorem escapeJson_of_le {c : CodePoint} (h : 0x7F ≤ c.toNat) :
    escapeJson true c = Text.ofChars (escapeCode c.toNat) := by
  have hne : ∀ d : Char, d.toNat < 0x7F → c ≠ char d := by
    rintro d hd rfl
    exact absurd (hd.trans_le h) (Nat.lt_irrefl _)
  rw [escapeJson, if_neg (hne _ (by decide)), if_neg (hne _ (by decide)),
    if_neg (hne _ (by decide)), if_neg (hne _ (by decide)), if_neg (hne _ (by decide)),
    if_neg (hne _ (by decide)), if_neg (hne _ (by decide)), if_pos (.inr ⟨rfl, h⟩)]

theorem escapeJson_pair (ha : isHighSurrogate a.toNat) (hb : isLowSurrogate b.toNat) :
    escapeJson true (.ofNat (pairCode a.toNat b.toNat))
      = escapeJson true a ++ escapeJson true b := by
  have hcode := toNat_ofNat_pairCode ha hb
  simp only [isHighSurrogate, isLowSurrogate, Bool.and_eq_true, decide_eq_true_iff] at ha hb
  have hpair : ¬pairCode a.toNat b.toNat < 0x10000 := by
    unfold pairCode
    omega
  -- the two units of its escape are the halves that it was made of
  have hhigh : 0xD800 + (pairCode a.toNat b.toNat - 0x10000) / 0x400 = a.toNat := by
    unfold pairCode
    omega
  have hlow : 0xDC00 + (pairCode a.toNat b.toNat - 0x10000) % 0x400 = b.toNat := by
    unfold pairCode
    omega
  rw [escapeJson_of_le (by omega), escapeJson_of_le (by omega), escapeJson_of_le (by omega), hcode,
    escapeCode, escapeCode, escapeCode, if_neg hpair, if_pos (by omega), if_pos (by omega), hhigh,
    hlow, Text.ofChars_append]

/-- In ASCII a text is written like the joined one. -/
theorem flatMap_joinHalves (t : Text) :
    (joinHalves t).flatMap (escapeJson true) = t.flatMap (escapeJson true) := by
  fun_induction joinHalves t with
  | case1 a b t h ih =>
    rw [List.flatMap_cons, ih, escapeJson_pair h.1 h.2, List.flatMap_cons, List.flatMap_cons,
      List.append_assoc]
  | case2 a b t h ih => rw [List.flatMap_cons, ih, ← List.flatMap_cons]
  | case3 t h => rfl

/-- A text that is joined starts as before, or with a character that two halves made. -/
theorem head?_joinHalves (t : Text) {c : CodePoint} (hc : c ∈ (joinHalves t).head?) :
    c ∈ t.head? ∨ 0x10000 ≤ c.toNat := by
  fun_cases joinHalves t with
  | case1 a b t h =>
    rw [joinHalves, if_pos h, List.head?_cons] at hc
    obtain rfl := Option.some.inj hc
    rw [toNat_ofNat_pairCode h.1 h.2]
    exact .inr ((Nat.le_add_right _ _).trans (Nat.le_add_right _ _))
  | case2 a b t h =>
    rw [joinHalves, if_neg h] at hc
    exact .inl hc
  | case3 t h =>
    rw [joinHalves] at hc
    · exact .inl hc
    · exact h

theorem unpaired_joinHalves (t : Text) : Unpaired (joinHalves t) := by
  have hfar : ∀ {c d : CodePoint}, 0x10000 ≤ c.toNat ∨ 0x10000 ≤ d.toNat →
      ¬(isHighSurrogate c.toNat ∧ isLowSurrogate d.toNat) := by
    simp only [isHighSurrogate, isLowSurrogate, Bool.and_eq_true, decide_eq_true_iff]
    omega
  fun_induction joinHalves t with
  | case1 a b t h ih =>
    refine List.isChain_cons.mpr ⟨fun d _ ↦ hfar (.inl ?_), ih⟩
    rw [toNat_ofNat_pairCode h.1 h.2]
    exact (Nat.le_add_right _ _).trans (Nat.le_add_right _ _)
  | case2 a b t h ih =>
    refine List.isChain_cons.mpr ⟨fun d hd ↦ ?_, ih⟩
    -- `a` may meet `b` as before, or a character that `b` went into
    obtain hd | hd := head?_joinHalves (b :: t) hd
    · obtain rfl := Option.some.inj hd
      exact h
    · exact hfar (.inr hd)
  | case3 t h =>
    cases t with
    | nil => exact List.isChain_nil
    | cons a t =>
      cases t with
      | nil => exact List.isChain_singleton a
      | cons b t => exact absurd rfl (h a b t)

end Halves

/-! ## Values -/

mutual

/-- The value in which the halves that meet in a text are joined. -/
def joined : Json → Json
  | .string t => .string (joinHalves t)
  | .array items => .array (joinedItems items)
  | .object fields => .object (joinedFields fields)
  | v => v

/-- The values in which the halves that meet in a text are joined. -/
def joinedItems : List Json → List Json
  | [] => []
  | v :: vs => joined v :: joinedItems vs

/-- The fields in whose values the halves that meet in a text are joined. -/
def joinedFields : Fields → Fields
  | [] => []
  | (k, v) :: rest => (k, joined v) :: joinedFields rest

end

theorem joinedFields_eq_map (fields : Fields) :
    joinedFields fields = fields.map fun f ↦ (f.1, f.2.joined) := by
  induction fields with
  | nil => rfl
  | cons f fields ih => rw [joinedFields, ih, List.map_cons]

section Ascii

variable {style : Style}

mutual

/-- In ASCII a value is written like the joined one. -/
theorem write_joined (hstyle : style.asciiOnly = true) (k : Nat) (v : Json) :
    v.joined.write style k = v.write style k := by
  match v with
  | .null | .bool _ | .int _ | .float _ => rfl
  | .string t => rw [joined, write, write, writeText, writeText, hstyle, flatMap_joinHalves]
  | .array [] => rfl
  | .array (v :: vs) =>
    rw [joined, joinedItems, write, write, write_joined hstyle, writeItems_joinedItems hstyle]
  | .object [] => rfl
  | .object ((key, v) :: fields) =>
    rw [joined, joinedFields, write, write, write_joined hstyle, writeFields_joinedFields hstyle]

theorem writeItems_joinedItems (hstyle : style.asciiOnly = true) (k : Nat) (vs : List Json) :
    writeItems style k (joinedItems vs) = writeItems style k vs := by
  match vs with
  | [] => rfl
  | v :: vs =>
    rw [joinedItems, writeItems, writeItems, write_joined hstyle, writeItems_joinedItems hstyle]

theorem writeFields_joinedFields (hstyle : style.asciiOnly = true) (k : Nat) (fields : Fields) :
    writeFields style k (joinedFields fields) = writeFields style k fields := by
  match fields with
  | [] => rfl
  | (key, v) :: fields =>
    rw [joinedFields, writeFields, writeFields, write_joined hstyle,
      writeFields_joinedFields hstyle]

end

end Ascii

/-! ## Bounds -/

theorem unpaired_of_encodeFault? {t : Text} (h : Utf8.encodeFault? t = none) : Unpaired t := by
  have hclean := Utf8.encodeFault?_eq_none_iff.mp h
  have hall : t.Pairwise fun a b ↦ ¬(isHighSurrogate a.toNat ∧ isLowSurrogate b.toNat) := by
    refine List.pairwise_of_forall_mem_list fun a ha b _ hpair ↦ ?_
    have hhalf := hclean a ha
    cases a with
    | half place => exact absurd hhalf nofun
    | char c =>
      have hvalid : c.toNat < 0xD800 ∨ 0xDFFF < c.toNat ∧ c.toNat < 0x110000 := c.valid
      have hhigh : isHighSurrogate c.toNat := hpair.1
      simp only [isHighSurrogate, Bool.and_eq_true, decide_eq_true_iff] at hhigh
      omega
  exact hall.isChain

mutual

theorem fits_joined {digits depth levels : Nat} {v : Json} (h : v.Fits false digits depth)
    (hkeys : v.unwritable? .keys levels = none) : v.joined.Fits true digits depth := by
  match levels, v with
  | 0, v => exact absurd hkeys (by simp [unwritable?])
  | _ + 1, .null | _ + 1, .bool _ | _ + 1, .int _ | _ + 1, .float _ => exact h
  | _ + 1, .string t => exact fun _ ↦ unpaired_joinHalves t
  | _ + 1, .array items => exact ⟨h.1, fitsItems_joinedItems h.2 hkeys⟩
  | _ + 1, .object fields =>
    refine ⟨h.1, ?_, fitsFields_joinedFields h.2.2 hkeys⟩
    rw [joinedFields_eq_map, List.map_map]
    exact h.2.1

theorem fitsItems_joinedItems {digits depth levels : Nat} {vs : List Json}
    (h : FitsItems false digits depth vs) (hkeys : unwritableItems? .keys levels vs = none) :
    FitsItems true digits depth (joinedItems vs) := by
  match vs with
  | [] => trivial
  | v :: vs =>
    obtain ⟨hv, hvs⟩ := Option.or_eq_none_iff.mp hkeys
    exact ⟨fits_joined h.1 hv, fitsItems_joinedItems h.2 hvs⟩

theorem fitsFields_joinedFields {digits depth levels : Nat} {fields : Fields}
    (h : FitsFields false digits depth fields)
    (hkeys : unwritableFields? .keys levels fields = none) :
    FitsFields true digits depth (joinedFields fields) := by
  match fields with
  | [] => trivial
  | (key, v) :: fields =>
    obtain ⟨hkey, hrest⟩ := Option.or_eq_none_iff.mp hkeys
    obtain ⟨hv, hfields⟩ := Option.or_eq_none_iff.mp hrest
    exact ⟨fun _ ↦ unpaired_of_encodeFault? (Option.map_eq_none_iff.mp hkey),
      fits_joined h.2.1 hv, fitsFields_joinedFields h.2.2 hfields⟩

end

/-! ## Lines -/

/-- Whether no object in a value repeats a key, and all keys can be encoded. -/
structure WellKeyed (v : Json) : Prop where
  distinct : v.Distinct
  encoded : ∃ levels, v.unwritable? .keys levels = none

theorem ofChars_asciiLine (v : Json) :
    Text.ofChars v.asciiLine.toList = v.joined.render ⟨none, true⟩ := by
  have hhalf : ∀ c ∈ v.render ⟨none, true⟩, c.isHalf = false := fun c ↦ isHalf_of_mem_write rfl
  rw [asciiLine, String.toList_ofList, Fields.ofChars_readable_eq_self_iff.mpr hhalf, render,
    render, write_joined rfl]

/-- **A line in ASCII stands for one value** up to halves that meet. -/
theorem asciiLine_eq_iff {v w : Json} (hv : v.WellKeyed) (hw : w.WellKeyed) :
    v.asciiLine = w.asciiLine ↔ v.joined = w.joined := by
  obtain ⟨hv, m, hvkeys⟩ := hv
  obtain ⟨hw, n, hwkeys⟩ := hw
  constructor
  · intro h
    -- a reader whose bounds leave room for both lines reads the joined values from them
    let room := v.oneLine.length + w.oneLine.length
    have hfitv : v.Fits (Style.mk none false).asciiOnly room room :=
      fits_length 0 hv (Nat.le_add_right _ _) (Nat.le_add_right _ _) rfl
    have hfitw : w.Fits (Style.mk none false).asciiOnly room room :=
      fits_length 0 hw (Nat.le_add_left _ _) (Nat.le_add_left _ _) rfl
    have hreadv : parse ⟨room, room⟩ (v.joined.render ⟨none, true⟩) = .ok v.joined :=
      parse_render (fits_joined hfitv hvkeys)
    have hreadw : parse ⟨room, room⟩ (w.joined.render ⟨none, true⟩) = .ok w.joined :=
      parse_render (fits_joined hfitw hwkeys)
    rw [← ofChars_asciiLine, h, ofChars_asciiLine, hreadw] at hreadv
    exact (Except.ok.inj hreadv).symm
  · intro h
    rw [← String.toList_inj, ← List.map_inj_right fun _ _ ↦ CodePoint.char.inj]
    exact (ofChars_asciiLine v).trans (h ▸ (ofChars_asciiLine w).symm)

end Json

end AgentFlow
