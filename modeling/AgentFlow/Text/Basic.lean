/-!
# Texts

Texts come from JSON, where an escape may name one half of a surrogate pair. No character has the
number of such a half, so a text is a list of code points: characters, and halves that stand alone.
A `String` counts as the text of its characters.

Code points are ordered by their numbers, and texts code point by code point.
-/

namespace AgentFlow

/-! ## Code points -/

/-- A code point of a text. -/
inductive CodePoint where
  /-- A character. -/
  | char (c : Char)
  /-- A half of a surrogate pair that stands alone, by its place among the halves. -/
  | half (place : Fin 0x800)
  deriving DecidableEq

namespace CodePoint

instance : Coe Char CodePoint := ⟨char⟩

/-- The number of the first half. -/
def firstHalf : Nat := 0xD800

/-- The number of a code point. -/
def toNat : CodePoint → Nat
  | char c => c.toNat
  | half place => firstHalf + place

/-- The code point of a number. -/
def ofNat (n : Nat) : CodePoint :=
  if h : n - firstHalf < 0x800 ∧ firstHalf ≤ n then half ⟨n - firstHalf, h.1⟩
  else char (Char.ofNat n)

/-- Whether a code point is a half that stands alone. -/
def isHalf : CodePoint → Bool
  | char _ => false
  | half _ => true

/-- The character that a code point is, if it is one. -/
def char? : CodePoint → Option Char
  | char c => some c
  | half _ => none

instance : LT CodePoint := ⟨fun a b ↦ a.toNat < b.toNat⟩

instance : DecidableLT CodePoint := fun a b ↦ inferInstanceAs (Decidable (a.toNat < b.toNat))

/-! No character has the number of a half, so a code point is known by its number. -/

theorem toNat_char_ne_toNat_half (c : Char) (place : Fin 0x800) :
    (char c).toNat ≠ (half place).toNat := by
  have valid : c.toNat < 0xD800 ∨ 0xDFFF < c.toNat ∧ c.toNat < 0x110000 := c.valid
  simp only [toNat, firstHalf]
  omega

theorem toNat_injective {a b : CodePoint} (h : a.toNat = b.toNat) : a = b := by
  cases a with
  | char c =>
    cases b with
    | char d => exact congrArg char (Char.toNat_inj.mp h)
    | half q => exact absurd h (toNat_char_ne_toNat_half c q)
  | half p =>
    cases b with
    | char c => exact absurd h.symm (toNat_char_ne_toNat_half c p)
    | half q => exact congrArg half (Fin.ext (Nat.add_left_cancel h))

@[simp] theorem ofNat_toNat (c : CodePoint) : ofNat c.toNat = c := by
  cases c with
  | char c =>
    have valid : c.toNat < 0xD800 ∨ 0xDFFF < c.toNat ∧ c.toNat < 0x110000 := c.valid
    have outside : ¬(c.toNat - 0xD800 < 0x800 ∧ 0xD800 ≤ c.toNat) := by omega
    exact (dif_neg outside).trans (congrArg char (Char.ofNat_toNat c))
  | half place =>
    have inside : 0xD800 + place.val - 0xD800 < 0x800 ∧ 0xD800 ≤ 0xD800 + place.val := by omega
    exact (dif_pos inside).trans (congrArg half (Fin.ext (Nat.add_sub_cancel_left ..)))

end CodePoint

/-! ## Texts -/

/-- A text is a list of code points. -/
abbrev Text := List CodePoint

namespace Text

/-- The text of a run of characters. -/
def ofChars (cs : List Char) : Text := cs.map CodePoint.char

/-- The text of a string. -/
def ofString (s : String) : Text := ofChars s.toList

instance : Coe String Text := ⟨ofString⟩

/-- Texts are compared by equality. -/
instance instLawfulBEq : LawfulBEq Text := inferInstance

@[simp] theorem ofString_inj {s t : String} : ofString s = ofString t ↔ s = t := by
  simp [ofString, ofChars, List.map_inj_right, String.toList_inj]

/-- The characters of a text, if no half stands alone in it. -/
def chars? (t : Text) : Option (List Char) := t.mapM CodePoint.char?

/-- A code point as characters: a half is none, and each of the three bytes that UTF-8 would need
for it counts as a byte that cannot be read. -/
def replaced : CodePoint → List Char
  | .char c => [c]
  | .half _ => List.replicate 3 '\ufffd'

/-- The characters of a text, with replacement characters for halves. -/
def readable (t : Text) : List Char := t.flatMap replaced

/-- The characters of a class at the head of a text. -/
def takeChars (p : Char → Bool) : Text → List Char
  | .char c :: t => if p c then c :: takeChars p t else []
  | _ => []

/-- The text behind the characters of a class at its head. -/
def dropChars (p : Char → Bool) : Text → Text
  | .char c :: t => if p c then dropChars p t else .char c :: t
  | t => t

theorem takeChars_append_dropChars (p : Char → Bool) (t : Text) :
    ofChars (takeChars p t) ++ dropChars p t = t := by
  fun_induction takeChars p t with
  | case1 c t hc ih => simpa [dropChars, hc, ofChars] using ih
  | case2 c t hc => simp [dropChars, hc, ofChars]
  | case3 t ht =>
    unfold dropChars
    split
    · exact absurd rfl (ht _ _)
    · rfl

@[simp] theorem readable_ofChars (cs : List Char) : readable (ofChars cs) = cs := by
  simp [readable, ofChars, List.flatMap_map, replaced]

@[simp] theorem chars?_ofChars (cs : List Char) : chars? (ofChars cs) = some cs := by
  induction cs with
  | nil => rfl
  | cons c cs ih => simp_all [chars?, ofChars, CodePoint.char?]

end Text

end AgentFlow
