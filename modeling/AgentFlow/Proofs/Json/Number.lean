import AgentFlow.Json.Parser
import AgentFlow.Json.Printer
import AgentFlow.Proofs.Number.Digits
import AgentFlow.Proofs.Number.Rounding
import AgentFlow.Proofs.Text.Run

/-!
# Reading numbers that were written

A number is read as far as it goes, so it is read back where the text does not go on with a
character that could belong to it (`Json.isNumberChar`). A whole number shows neither point nor
exponent and stays whole (`Json.readAtom?_intDigits`). A binary64 number always shows one of them,
and each of its layouts has the value of its digits (`Json.readUnsigned?_layout`), so it comes back
as it was, the infinities and NaN by name (`Json.readAtom?_writeBinary64`).
-/

namespace AgentFlow

open CodePoint (char)

namespace Json

/-- What may not follow a number, or it would be read as part of it. -/
def isNumberChar (c : Char) : Bool := isAsciiDigit c || c = '.' || c = 'e' || c = 'E'

variable {negative : Bool} {digits : Nat} {t : Text}

theorem Breaks.digit (ht : t.Breaks isNumberChar) : t.Breaks isAsciiDigit :=
  ht.mono fun c hc ↦ by simp [isNumberChar, hc]

theorem Breaks.point (ht : t.Breaks isNumberChar) : t.Breaks (· = '.') :=
  ht.mono fun c hc ↦ by simp [isNumberChar, of_decide_eq_true hc]

theorem Breaks.letter (ht : t.Breaks isNumberChar) : t.Breaks fun c ↦ c = 'e' || c = 'E' := by
  apply ht.mono
  intro c hc
  rw [Bool.or_eq_true, decide_eq_true_iff, decide_eq_true_iff] at hc
  obtain rfl | rfl := hc <;> decide

/-! ## Parts -/

/-- The whole part of a number: a zero alone, or digits without zeros in front. -/
def IsWhole (ds : List Char) : Prop := ds = ['0'] ∨ Decimal.Leads ds

theorem isWhole_decimalDigits (n : Nat) : IsWhole (decimalDigits n) := by
  rcases Nat.eq_zero_or_pos n with rfl | hn
  · exact .inl rfl
  · exact .inr ⟨fun _ ↦ isAsciiDigit_of_mem_decimalDigits, Nat.toDigits_ne_nil,
      head?_decimalDigits_ne_zero hn⟩

theorem IsWhole.ne_nil {ds : List Char} (h : IsWhole ds) : ds ≠ [] := by
  obtain rfl | hds := h
  · exact List.cons_ne_nil _ _
  · exact hds.ne_nil

theorem IsWhole.exists_cons {ds : List Char} (h : IsWhole ds) :
    ∃ d rest, ds = d :: rest ∧ isAsciiDigit d := by
  obtain rfl | hds := h
  · exact ⟨'0', [], rfl, rfl⟩
  · obtain ⟨d, rest, rfl⟩ := List.exists_cons_of_ne_nil hds.ne_nil
    exact ⟨d, rest, rfl, hds.digits d List.mem_cons_self⟩

theorem splitWhole_isWhole {ds : List Char} (h : IsWhole ds) (ht : t.Breaks isAsciiDigit) :
    splitWhole (Text.ofChars ds ++ t) = (ds, t) := by
  obtain rfl | hds := h
  · rfl
  · rw [splitWhole, Text.takeChars_ofChars_append hds.digits ht,
      Text.dropChars_ofChars_append hds.digits ht]
    intro u hu
    obtain ⟨d, rest, rfl⟩ := List.exists_cons_of_ne_nil hds.ne_nil
    obtain ⟨rfl, -⟩ : d = '0' ∧ _ := by simpa [Text.ofChars] using hu
    exact hds.head rfl

theorem splitFraction_point {ds : List Char} (hds : ∀ d ∈ ds, isAsciiDigit d) (hne : ds ≠ [])
    (ht : t.Breaks isAsciiDigit) :
    splitFraction (char '.' :: (Text.ofChars ds ++ t)) = (ds, t) := by
  rw [splitFraction, Text.takeChars_ofChars_append hds ht, Text.dropChars_ofChars_append hds ht,
    if_neg (by simpa using hne)]

theorem splitFraction_none (ht : t.Breaks (· = '.')) : splitFraction t = ([], t) := by
  rw [splitFraction]
  rintro u rfl
  exact absurd (ht '.' u rfl) (by decide)

theorem splitExponent_none (ht : t.Breaks fun c ↦ c = 'e' || c = 'E') :
    splitExponent t = (none, t) := by
  cases t with
  | nil => rfl
  | cons c t =>
    have hc : ¬(c = char 'e' ∨ c = char 'E') := by
      rintro (rfl | rfl)
      · exact absurd (ht 'e' t rfl) (by decide)
      · exact absurd (ht 'E' t rfl) (by decide)
    simp [splitExponent, hc]

theorem splitExponent_digits (negative : Bool) {ds : List Char} (hds : ∀ d ∈ ds, isAsciiDigit d)
    (hne : ds ≠ []) (ht : t.Breaks isAsciiDigit) :
    splitExponent (char 'e' :: char (if negative then '-' else '+') :: (Text.ofChars ds ++ t))
      = (some (if negative then -(digitsValue ds : Int) else digitsValue ds), t) := by
  have hsign : splitExponentSign (char (if negative then '-' else '+') :: (Text.ofChars ds ++ t))
      = (negative, Text.ofChars ds ++ t) := by cases negative <;> rfl
  rw [splitExponent, hsign]
  simp only [Text.takeChars_ofChars_append hds ht, Text.dropChars_ofChars_append hds ht]
  exact if_pos ⟨.inl trivial, by simpa using hne⟩

/-- An exponent is written as a sign and the digits of its size, filled up to two places. -/
theorem exists_exponentText (e : Int) :
    ∃ ds : List Char, (∀ d ∈ ds, isAsciiDigit d) ∧ ds ≠ [] ∧ digitsValue ds = e.natAbs ∧
      Decimal.exponentText e = 'e' :: (if decide (e < 0) then '-' else '+') :: ds := by
  have hdigits : ∀ d ∈ decimalDigits e.natAbs, isAsciiDigit d := fun _ ↦
    isAsciiDigit_of_mem_decimalDigits
  by_cases hlength : (decimalDigits e.natAbs).length < 2
  · refine ⟨'0' :: decimalDigits e.natAbs, ?_, List.cons_ne_nil _ _, ?_, ?_⟩
    · exact List.forall_mem_cons.mpr ⟨rfl, hdigits⟩
    · exact digitsValue_decimalDigits e.natAbs
    · simp [Decimal.exponentText, hlength]
  · refine ⟨decimalDigits e.natAbs, hdigits, Nat.toDigits_ne_nil, ?_, ?_⟩
    · exact digitsValue_decimalDigits e.natAbs
    · simp [Decimal.exponentText, hlength]

theorem splitExponent_exponentText (e : Int) (ht : t.Breaks isAsciiDigit) :
    splitExponent (Text.ofChars (Decimal.exponentText e) ++ t) = (some e, t) := by
  obtain ⟨ds, hds, hne, hvalue, htext⟩ := exists_exponentText e
  have hsigned : (if decide (e < 0) then -(digitsValue ds : Int) else digitsValue ds) = e := by
    rw [hvalue]
    split
    next hneg =>
      have := of_decide_eq_true hneg
      omega
    next hneg =>
      have : ¬e < 0 := fun h ↦ hneg (decide_eq_true h)
      omega
  have hsplit := splitExponent_digits (decide (e < 0)) hds hne ht
  rw [hsigned] at hsplit
  rw [htext]
  exact hsplit

/-! ## Unsigned numbers -/

theorem readUnsigned?_int {ds : List Char} (hds : IsWhole ds) (hlength : ds.length ≤ digits)
    (ht : t.Breaks isNumberChar) :
    readUnsigned? digits negative (Text.ofChars ds ++ t)
      = some (.int (if negative then -(digitsValue ds : Int) else digitsValue ds), t) := by
  have hne := hds.ne_nil
  have hlength : ¬digits < ds.length := by omega
  simp [readUnsigned?, splitWhole_isWhole hds (Breaks.digit ht),
    splitFraction_none (Breaks.point ht), splitExponent_none (Breaks.letter ht), hne, hlength]

theorem readUnsigned?_float (digits : Nat) (negative : Bool) {ds fraction : List Char}
    {exponent : Option Int} {s u : Text} (hds : IsWhole ds) (hs : s.Breaks isAsciiDigit)
    (hfraction : splitFraction s = (fraction, u))
    (hexponent : splitExponent u = (exponent, t))
    (hfloat : fraction ≠ [] ∨ exponent ≠ none) :
    readUnsigned? digits negative (Text.ofChars ds ++ s)
      = some (.float (Binary64.ofDecimal negative (digitsValue (ds ++ fraction))
          (exponent.getD 0 - fraction.length)), t) := by
  have hne := hds.ne_nil
  have hfloat' : ¬(fraction = [] ∧ exponent = none) := by tauto
  simp [readUnsigned?, splitWhole_isWhole hds hs, hfraction, hexponent, hne, hfloat']

/-- Digits around a point are read back with the value that they have without it. -/
theorem readUnsigned?_pointed (digits : Nat) (negative : Bool) {ds fraction : List Char}
    (hds : IsWhole ds) (hfraction : ∀ c ∈ fraction, isAsciiDigit c) (hne : fraction ≠ [])
    (ht : t.Breaks isNumberChar) :
    readUnsigned? digits negative (Text.ofChars (ds ++ '.' :: fraction) ++ t)
      = some (.float (Binary64.ofDecimal negative (digitsValue (ds ++ fraction))
          (0 - fraction.length)), t) := by
  rw [Text.ofChars_append, List.append_assoc]
  exact readUnsigned?_float digits negative hds (Text.breaks_char (by decide) _)
    (splitFraction_point hfraction hne (Breaks.digit ht)) (splitExponent_none (Breaks.letter ht))
    (.inl hne)

theorem digitsValue_zeros_append (k : Nat) (ds : List Char) :
    digitsValue (List.replicate k '0' ++ ds) = digitsValue ds := by
  rw [digitsValue_append, digitsValue_replicate_zero, Nat.zero_mul, Nat.zero_add]

theorem isAsciiDigit_of_mem_zeros {k : Nat} {c : Char} (hc : c ∈ List.replicate k '0') :
    isAsciiDigit c := by
  rw [List.eq_of_mem_replicate hc]
  rfl

theorem Leads.isWhole_take {ds : List Char} (hds : Decimal.Leads ds) (n : Nat) (zeros : Nat) :
    IsWhole ((ds ++ List.replicate zeros '0').take (n + 1)) := by
  obtain ⟨d, rest, rfl⟩ := List.exists_cons_of_ne_nil hds.ne_nil
  refine .inr ⟨fun c hc ↦ ?_, List.cons_ne_nil _ _, hds.head⟩
  rcases List.mem_append.mp (List.mem_of_mem_take hc) with hc | hc
  · exact hds.digits c hc
  · exact isAsciiDigit_of_mem_zeros hc

/-- A number laid out positionally is read back with the value of its digits. -/
theorem readUnsigned?_positional {ds : List Char} {e : Int} (hds : Decimal.Leads ds)
    (he : 0 ≤ e) (ht : t.Breaks isNumberChar) {whole : Nat} (hwhole : whole = e.toNat + 1)
    {padded fraction : List Char} (hpadded : padded = ds ++ List.replicate (whole - ds.length) '0')
    (hfraction : fraction = padded.drop whole) :
    readUnsigned? digits negative (Text.ofChars (padded.take whole ++ '.' ::
        (if fraction.isEmpty then ['0'] else fraction)) ++ t)
      = some (.float (Binary64.ofDecimal negative (digitsValue ds) (e + 1 - ds.length)), t) := by
  have hparts : padded = padded.take whole ++ fraction := by
    rw [hfraction, List.take_append_drop]
  have hlength : padded.length = max whole ds.length := by
    rw [hpadded, List.length_append, List.length_replicate]
    omega
  have hiswhole : IsWhole (padded.take whole) := by
    rw [hpadded, hwhole]
    exact Leads.isWhole_take hds _ _
  have hsplit : fraction.length = padded.length - whole := by rw [hfraction, List.length_drop]
  rcases List.eq_nil_or_concat fraction with hnil | ⟨init, last, hcons⟩
  · -- all digits stand in front of the point, with zeros up to it, and one zero behind it
    have hzero : ∀ c ∈ ['0'], isAsciiDigit c := List.forall_mem_singleton.mpr rfl
    rw [hnil, List.length_nil] at hsplit
    rw [hnil, List.append_nil] at hparts
    rw [hnil, List.isEmpty_nil, if_pos rfl,
      readUnsigned?_pointed digits negative hiswhole hzero (List.cons_ne_nil _ _) ht, ← hparts,
      hpadded, List.append_assoc, digitsValue_append, digitsValue_zeros_append,
      List.length_append, List.length_replicate, show digitsValue ['0'] = 0 from rfl,
      Nat.add_zero, Binary64.ofDecimal_mul_pow]
    congr 4
    simp only [List.length_singleton]
    omega
  · have hne : fraction ≠ [] := by simp [hcons]
    have hpos := List.length_pos_iff.mpr hne
    have hpadded' : padded = ds := by
      have hzero : whole - ds.length = 0 := by omega
      rw [hpadded, hzero, List.replicate_zero, List.append_nil]
    have hdigits : ∀ c ∈ fraction, isAsciiDigit c := by
      intro c hc
      apply hds.digits
      rw [← hpadded']
      exact List.mem_of_mem_drop (hfraction ▸ hc)
    rw [if_neg (by simpa using hne), readUnsigned?_pointed digits negative hiswhole hdigits hne ht,
      ← hparts, hpadded']
    congr 4
    rw [hpadded'] at hsplit hlength
    omega

/-- A number laid out with zeros behind its point is read back with the value of its digits. -/
theorem readUnsigned?_small {ds : List Char} {e : Int} (hds : Decimal.Leads ds) (he : e < 0)
    (ht : t.Breaks isNumberChar) :
    readUnsigned? digits negative (Text.ofChars
        ('0' :: '.' :: List.replicate ((-e).toNat - 1) '0' ++ ds) ++ t)
      = some (.float (Binary64.ofDecimal negative (digitsValue ds) (e + 1 - ds.length)), t) := by
  have hdigits : ∀ c ∈ List.replicate ((-e).toNat - 1) '0' ++ ds, isAsciiDigit c := by
    intro c hc
    rcases List.mem_append.mp hc with hc | hc
    · exact isAsciiDigit_of_mem_zeros hc
    · exact hds.digits c hc
  have hne : List.replicate ((-e).toNat - 1) '0' ++ ds ≠ [] :=
    List.append_ne_nil_of_right_ne_nil _ hds.ne_nil
  have hvalue : digitsValue (['0'] ++ (List.replicate ((-e).toNat - 1) '0' ++ ds))
      = digitsValue ds := digitsValue_zeros_append ((-e).toNat - 1) ds
  have hread := readUnsigned?_pointed digits negative (.inl rfl) hdigits hne ht
  rw [hvalue] at hread
  refine hread.trans ?_
  congr 4
  simp only [List.length_append, List.length_replicate]
  omega

/-- A number in scientific layout is read back with the value of its digits. -/
theorem readUnsigned?_scientific {d : Char} {rest : List Char} (point : List Char) {e : Int}
    (hds : Decimal.Leads (d :: rest)) (ht : t.Breaks isNumberChar)
    (hpoint : splitFraction (Text.ofChars point ++ (Text.ofChars (Decimal.exponentText e) ++ t))
      = (rest, Text.ofChars (Decimal.exponentText e) ++ t))
    (hbreaks : (Text.ofChars point ++ (Text.ofChars (Decimal.exponentText e) ++ t)).Breaks
      isAsciiDigit) :
    readUnsigned? digits negative (Text.ofChars (d :: point ++ Decimal.exponentText e) ++ t)
      = some (.float (Binary64.ofDecimal negative (digitsValue (d :: rest))
          (e + 1 - (d :: rest).length)), t) := by
  have hd : IsWhole [d] := by
    refine .inr ⟨?_, List.cons_ne_nil _ _, hds.head⟩
    exact List.forall_mem_singleton.mpr (hds.digits d List.mem_cons_self)
  have hread := readUnsigned?_float digits negative hd hbreaks hpoint
    (splitExponent_exponentText e (Breaks.digit ht)) (.inr (by simp))
  rw [Text.ofChars_append, List.append_assoc]
  refine hread.trans ?_
  congr 4
  simp only [Option.getD_some, List.length_cons]
  omega

/-- **Every layout of digits has their value.** -/
theorem readUnsigned?_layout {ds : List Char} (hds : Decimal.Leads ds) (e : Int)
    (ht : t.Breaks isNumberChar) :
    readUnsigned? digits negative (Text.ofChars (Decimal.layout ds e) ++ t)
      = some (.float (Binary64.ofDecimal negative (digitsValue ds) (e + 1 - ds.length)), t) := by
  unfold Decimal.layout
  split_ifs with hscientific hsmall
  · have hpoint : (Text.ofChars (Decimal.exponentText e) ++ t).Breaks (· = '.') :=
      Text.breaks_char (by decide) _
    have hexponent : (Text.ofChars (Decimal.exponentText e) ++ t).Breaks isAsciiDigit :=
      Text.breaks_char (by decide) _
    match ds, hds with
    | [], hds => exact absurd rfl hds.ne_nil
    | [d], hds =>
      exact readUnsigned?_scientific [] hds ht (splitFraction_none hpoint) hexponent
    | d :: d' :: rest, hds =>
      have hrest : ∀ c ∈ d' :: rest, isAsciiDigit c := fun c hc ↦
        hds.digits c (List.mem_cons_of_mem d hc)
      exact readUnsigned?_scientific ('.' :: d' :: rest) hds ht
        (splitFraction_point hrest (List.cons_ne_nil _ _) hexponent)
        (Text.breaks_char (by decide) _)
  · exact readUnsigned?_small hds hsmall ht
  · exact readUnsigned?_positional hds (by omega) ht rfl rfl rfl

/-! ## Numbers -/

theorem ofDecimal_zero (exponent : Int) :
    Binary64.ofDecimal negative 0 exponent = .ofRank negative 0 := if_pos rfl

/-- The magnitude zero is written by itself, any other as digits that have its value. -/
theorem magnitudeText_eq (r : Fin magnitudeCount) :
    r.val = 0 ∧ Binary64.magnitudeText r = ['0', '.', '0'] ∨
      ∃ ds e, Decimal.Leads ds ∧ Binary64.magnitudeText r = Decimal.layout ds e ∧
        Binary64.ofDecimal false (digitsValue ds) (e + 1 - ds.length) = .finite false r := by
  rw [Binary64.magnitudeText]
  split
  next hzero => exact .inl ⟨hzero, rfl⟩
  next hpos =>
    have hshortest := Decimal.ofDecimal_shortest r
    rw [Binary64.ofRank_val] at hshortest
    have hdigits : 0 < (Decimal.shortest r).digits := by
      rw [Nat.pos_iff_ne_zero]
      intro hzero
      rw [hzero, ofDecimal_zero, Binary64.ofRank, dif_pos (by decide)] at hshortest
      injection hshortest with _ hr
      exact hpos (by rw [← hr])
    obtain ⟨ds, k, hds, hvalue, hleading⟩ := Decimal.exists_leading hdigits
    rw [hvalue, Binary64.ofDecimal_mul_pow] at hshortest
    refine .inr ⟨ds, _, hds, by rw [Decimal.text, hleading], ?_⟩
    rw [← hshortest]
    congr 1
    omega

theorem readUnsigned?_magnitudeText (r : Fin magnitudeCount) (ht : t.Breaks isNumberChar) :
    readUnsigned? digits negative (Text.ofChars (Binary64.magnitudeText r) ++ t)
      = some (.float (.finite negative r), t) := by
  obtain ⟨hzero, htext⟩ | ⟨ds, e, hds, htext, hvalue⟩ := magnitudeText_eq r
  · have hdigit : ∀ d ∈ ['0'], isAsciiDigit d := List.forall_mem_singleton.mpr rfl
    rw [htext]
    refine (readUnsigned?_pointed digits negative (.inl rfl) hdigit (List.cons_ne_nil _ _)
      ht).trans ?_
    rw [show digitsValue (['0'] ++ ['0']) = 0 from rfl, ofDecimal_zero, ← hzero,
      Binary64.ofRank_val]
  · rw [htext, readUnsigned?_layout hds e ht, Binary64.ofDecimal_of_finite hvalue]

/-! ## Words and numbers -/

theorem readAtom?_word {w : Text} {v : Json} (h : (w, v) ∈ words) (t : Text) :
    readAtom? digits (w ++ t) = some (v, t) := by
  simp only [words, List.mem_cons, Prod.mk.injEq, List.not_mem_nil, or_false] at h
  obtain ⟨rfl, rfl⟩ | ⟨rfl, rfl⟩ | ⟨rfl, rfl⟩ | ⟨rfl, rfl⟩ | ⟨rfl, rfl⟩ | ⟨rfl, rfl⟩ := h <;> rfl

/-- No word starts with a digit, and none goes on with one behind a minus. -/
theorem afterWord?_digit {d : Char} (hd : isAsciiDigit d) (t : Text) {p : Text × Json}
    (hp : p ∈ words) :
    afterWord? p.1 (char d :: t) = none ∧ afterWord? p.1 (char '-' :: char d :: t) = none := by
  have hne : ∀ {c}, isAsciiDigit c = false → char c ≠ char d := by
    rintro c hc ⟨⟩
    exact absurd hd (by simp [hc])
  have hplain : ∀ {c w}, p.1 = char c :: w → isAsciiDigit c = false → c ≠ '-' →
      afterWord? p.1 (char d :: t) = none ∧ afterWord? p.1 (char '-' :: char d :: t) = none := by
    intro c w hw hc hminus
    rw [hw]
    exact ⟨if_neg (hne hc), if_neg (by simpa using hminus)⟩
  simp only [words, List.mem_cons, List.not_mem_nil, or_false] at hp
  obtain rfl | rfl | rfl | rfl | rfl | rfl := hp
  · exact hplain rfl (by decide) (by decide)
  · exact hplain rfl (by decide) (by decide)
  · exact hplain rfl (by decide) (by decide)
  · exact hplain rfl (by decide) (by decide)
  · exact hplain rfl (by decide) (by decide)
  · exact ⟨if_neg (hne (by decide)), (if_pos rfl).trans (if_neg (hne (by decide)))⟩

theorem findSome?_words {t : Text} (h : ∀ p ∈ words, afterWord? p.1 t = none) :
    words.findSome? (fun (w, v) ↦ (afterWord? w t).map fun rest ↦ (v, rest)) = none :=
  List.findSome?_eq_none_iff.mpr fun p hp ↦ Option.map_eq_none_iff.mpr (h p hp)

/-- Digits behind a sign. -/
def signed (negative : Bool) (cs : List Char) : List Char := if negative then '-' :: cs else cs

theorem intDigits_eq_signed (n : Int) :
    intDigits n = signed (n < 0) (decimalDigits n.natAbs) := by
  simp [intDigits, signed]

theorem readAtom?_signed {cs : List Char} (hcs : ∃ d rest, cs = d :: rest ∧ isAsciiDigit d)
    (t : Text) :
    readAtom? digits (Text.ofChars (signed negative cs) ++ t)
      = readUnsigned? digits negative (Text.ofChars cs ++ t) := by
  obtain ⟨d, rest, rfl, hd⟩ := hcs
  cases negative with
  | false =>
    have hnone := findSome?_words fun p hp ↦ (afterWord?_digit hd (Text.ofChars rest ++ t) hp).1
    have hminus : char d ≠ char '-' := by
      rintro ⟨⟩
      exact absurd hd (by decide)
    change readAtom? digits (char d :: (Text.ofChars rest ++ t)) = _
    rw [readAtom?, hnone]
    · rfl
    · exact fun u hu ↦ hminus (List.cons.inj hu).1
  | true =>
    have hnone := findSome?_words fun p hp ↦ (afterWord?_digit hd (Text.ofChars rest ++ t) hp).2
    change readAtom? digits (char '-' :: char d :: (Text.ofChars rest ++ t)) = _
    rw [readAtom?, hnone]
    rfl

theorem exists_digit_layout {ds : List Char} (hds : Decimal.Leads ds) (e : Int) :
    ∃ d rest, Decimal.layout ds e = d :: rest ∧ isAsciiDigit d := by
  obtain ⟨d, rest, rfl⟩ := List.exists_cons_of_ne_nil hds.ne_nil
  have hd := hds.digits d List.mem_cons_self
  unfold Decimal.layout
  split_ifs
  · cases rest with
    | nil => exact ⟨d, _, rfl, hd⟩
    | cons => exact ⟨d, _, rfl, hd⟩
  · exact ⟨'0', _, rfl, rfl⟩
  · exact ⟨d, _, rfl, hd⟩

theorem exists_digit_magnitudeText (r : Fin magnitudeCount) :
    ∃ d rest, Binary64.magnitudeText r = d :: rest ∧ isAsciiDigit d := by
  obtain ⟨-, htext⟩ | ⟨ds, e, hds, htext, -⟩ := magnitudeText_eq r
  · exact ⟨'0', _, htext, rfl⟩
  · rw [htext]
    exact exists_digit_layout hds e

/-- **A whole number is read back** where it may have so many digits. -/
theorem readAtom?_intDigits {n : Int} (hdigits : (decimalDigits n.natAbs).length ≤ digits)
    (ht : t.Breaks isNumberChar) :
    readAtom? digits (Text.ofChars (intDigits n) ++ t) = some (.int n, t) := by
  have hwhole := isWhole_decimalDigits n.natAbs
  rw [intDigits_eq_signed, readAtom?_signed hwhole.exists_cons, readUnsigned?_int hwhole hdigits ht,
    digitsValue_decimalDigits]
  congr 3
  by_cases hneg : n < 0
  · simp only [hneg, decide_true, if_true]
    omega
  · simp only [hneg, decide_false]
    simp only [Bool.false_eq_true, if_false]
    omega

/-- **A binary64 number is read back.** -/
theorem readAtom?_writeBinary64 (x : Binary64) (ht : t.Breaks isNumberChar) :
    readAtom? digits (Text.ofChars (writeBinary64 x) ++ t) = some (.float x, t) := by
  match x with
  | .nan => exact readAtom?_word (w := "NaN") (by simp [words]) t
  | .infinity false => exact readAtom?_word (w := "Infinity") (by simp [words]) t
  | .infinity true => exact readAtom?_word (w := "-Infinity") (by simp [words]) t
  | .finite negative r =>
    have hsigned : writeBinary64 (.finite negative r)
        = signed negative (Binary64.magnitudeText r) := rfl
    rw [hsigned, readAtom?_signed (exists_digit_magnitudeText r), readUnsigned?_magnitudeText r ht]

end Json

end AgentFlow
