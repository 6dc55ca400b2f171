import AgentFlow.Json.Height
import AgentFlow.Proofs.Json.Number
import AgentFlow.Proofs.Json.Text

/-!
# Reading values that were written

Every style writes a value so that reading it gives the value back (`Json.readValue_write`), as long
as it stays within the bounds of the reader (`Json.Fits`): no object in it repeats a key, brackets
do not nest too deep, whole numbers are short enough, and where only ASCII may be written no two
halves of a surrogate pair meet. Whatever can be written to a file stays within the bounds of files
from outside (`Json.parse_render`), and a reader without bounds of its own takes every value
(`Json.parse?_render`).
-/

namespace AgentFlow

open CodePoint (char)

/-! ## Fields -/

namespace Fields

theorem put_of_notMem {fields : Fields} {key : Text} (h : key ∉ fields.map Prod.fst) (v : Json) :
    put fields key v = fields ++ [(key, v)] := by
  induction fields with
  | nil => rfl
  | cons f fields ih =>
    rw [List.map_cons, List.mem_cons, not_or] at h
    rw [put, if_neg (Ne.symm h.1), ih h.2, List.cons_append]

theorem ofPairs_eq_self {fields : Fields} (h : (fields.map Prod.fst).Nodup) :
    ofPairs fields = fields := by
  have hfold : ∀ done : Fields, ((done ++ fields).map Prod.fst).Nodup →
      fields.foldl (fun fields p ↦ put fields p.1 p.2) done = done ++ fields := by
    clear h
    induction fields with
    | nil => intro done _; rw [List.foldl_nil, List.append_nil]
    | cons f fields ih =>
      intro done hdone
      have hnotMem : f.1 ∉ done.map Prod.fst := by
        intro hmem
        rw [List.map_append, List.map_cons, List.nodup_append] at hdone
        exact hdone.2.2 _ hmem _ List.mem_cons_self rfl
      rw [List.foldl_cons, put_of_notMem hnotMem, ih, List.append_assoc, List.singleton_append]
      rwa [List.append_assoc, List.singleton_append]
  exact hfold [] h

end Fields

namespace Json

/-! ## Bounds -/

mutual

/-- Whether a value stays within the bounds of a reader. -/
def Fits (asciiOnly : Bool) (digits : Nat) : Nat → Json → Prop
  | _, .int n => (decimalDigits n.natAbs).length ≤ digits
  | _, .string s => asciiOnly → Unpaired s
  | depth, .array items => 0 < depth ∧ FitsItems asciiOnly digits (depth - 1) items
  | depth, .object fields =>
    0 < depth ∧ (fields.map Prod.fst).Nodup ∧ FitsFields asciiOnly digits (depth - 1) fields
  | _, _ => True

/-- Whether all of some values do. -/
def FitsItems (asciiOnly : Bool) (digits : Nat) (depth : Nat) : List Json → Prop
  | [] => True
  | v :: vs => Fits asciiOnly digits depth v ∧ FitsItems asciiOnly digits depth vs

/-- Whether all of some fields do. -/
def FitsFields (asciiOnly : Bool) (digits : Nat) (depth : Nat) : Fields → Prop
  | [] => True
  | (k, v) :: rest =>
    (asciiOnly → Unpaired k) ∧ Fits asciiOnly digits depth v ∧
      FitsFields asciiOnly digits depth rest

end

/-! ## Gaps -/

section Gaps

variable {g t u : Text} {c : CodePoint}

theorem skipGap_append (hg : ∀ c ∈ g, isGap c) (t : Text) : skipGap (g ++ t) = skipGap t := by
  rw [skipGap, List.dropWhile_append_of_pos hg]
  rfl

theorem skipGap_cons (hc : isGap c = false) (t : Text) : skipGap (c :: t) = c :: t := by
  rw [skipGap, List.dropWhile_cons_of_neg (by simp [hc])]

theorem isGap_of_mem_gap {style : Style} {depth : Nat} (hc : c ∈ style.gap depth) : isGap c := by
  rw [Style.gap] at hc
  split at hc
  next => exact absurd hc List.not_mem_nil
  next =>
    rcases List.mem_cons.mp hc with rfl | hc
    · rfl
    · rw [List.eq_of_mem_replicate hc]
      rfl

theorem exists_separator (style : Style) (depth : Nat) :
    ∃ g, style.separator depth = char ',' :: g ∧ ∀ c ∈ g, isGap c := by
  rw [Style.separator]
  split
  next => exact ⟨[char ' '], rfl, by simp [isGap]⟩
  next => exact ⟨_, rfl, fun _ ↦ isGap_of_mem_gap⟩

/-- What follows a value: a separator, or a gap and a closing bracket. Neither goes on with a
character of a number. -/
theorem breaks_of_isGap (hg : ∀ c ∈ g, isGap c) (ht : t.Breaks isNumberChar) :
    (g ++ t).Breaks isNumberChar := by
  cases g with
  | nil => exact ht
  | cons c g =>
    intro d v hdv
    obtain ⟨rfl, -⟩ := List.cons.inj hdv
    have hd := hg (char d) List.mem_cons_self
    simp only [isGap, Bool.or_eq_true, decide_eq_true_iff, CodePoint.char.injEq] at hd
    obtain ((rfl | rfl) | rfl) | rfl := hd <;> decide

end Gaps

/-! ## Heads -/

/-- Whether a word or a number may start with a character. -/
def startsAtom (c : Char) : Bool := isAsciiDigit c || c ∈ ['-', 'n', 't', 'f', 'N', 'I']

theorem exists_head_signed {cs : List Char} (hcs : ∃ d rest, cs = d :: rest ∧ isAsciiDigit d)
    (negative : Bool) : ∃ c rest, signed negative cs = c :: rest ∧ startsAtom c := by
  obtain ⟨d, rest, rfl, hd⟩ := hcs
  cases negative with
  | false => exact ⟨d, rest, rfl, by simp [startsAtom, hd]⟩
  | true => exact ⟨'-', _, rfl, by decide⟩

theorem exists_head_intDigits (n : Int) : ∃ c rest, intDigits n = c :: rest ∧ startsAtom c := by
  rw [intDigits_eq_signed]
  exact exists_head_signed (isWhole_decimalDigits n.natAbs).exists_cons _

theorem exists_head_writeBinary64 (x : Binary64) :
    ∃ c rest, writeBinary64 x = c :: rest ∧ startsAtom c := by
  match x with
  | .nan => exact ⟨'N', _, rfl, by decide⟩
  | .infinity false => exact ⟨'I', _, rfl, by decide⟩
  | .infinity true => exact ⟨'-', _, rfl, by decide⟩
  | .finite negative r => exact exists_head_signed (exists_digit_magnitudeText r) negative

/-- The first character of a value is no gap and does not close a bracket. -/
theorem exists_head (style : Style) (depth : Nat) (v : Json) :
    ∃ c t, write style depth v = char c :: t ∧ (startsAtom c ∨ c ∈ ['"', '[', '{']) := by
  match v with
  | .null => exact ⟨'n', _, rfl, by decide⟩
  | .bool true => exact ⟨'t', _, rfl, by decide⟩
  | .bool false => exact ⟨'f', _, rfl, by decide⟩
  | .int n =>
    obtain ⟨c, rest, h, hc⟩ := exists_head_intDigits n
    exact ⟨c, Text.ofChars rest, congrArg Text.ofChars h, .inl hc⟩
  | .float x =>
    obtain ⟨c, rest, h, hc⟩ := exists_head_writeBinary64 x
    exact ⟨c, Text.ofChars rest, congrArg Text.ofChars h, .inl hc⟩
  | .string s => exact ⟨'"', _, rfl, by decide⟩
  | .array [] => exact ⟨'[', _, rfl, by decide⟩
  | .array (_ :: _) => exact ⟨'[', _, rfl, by decide⟩
  | .object [] => exact ⟨'{', _, rfl, by decide⟩
  | .object ((_, _) :: _) => exact ⟨'{', _, rfl, by decide⟩

theorem length_write_pos (style : Style) (depth : Nat) (v : Json) :
    0 < (write style depth v).length := by
  obtain ⟨c, t, h, -⟩ := exists_head style depth v
  rw [h]
  exact Nat.succ_pos _

theorem write_ne (style : Style) (depth : Nat) (v : Json) (rest : Text) {c : Char}
    (hc : c ∈ [' ', '\t', '\n', '\r', ']', '}']) (t : Text) :
    write style depth v ++ rest ≠ char c :: t := by
  have hall : [' ', '\t', '\n', '\r', ']', '}'].all fun c ↦
      !startsAtom c && c ∉ ['"', '[', '{'] := by decide
  obtain ⟨d, u, h, hd⟩ := exists_head style depth v
  rw [h]
  rintro ⟨⟩
  obtain ⟨hatom, hopen⟩ := Bool.and_eq_true_iff.mp (List.all_eq_true.mp hall c hc)
  obtain hd | hd := hd
  · exact absurd hd (by simpa using hatom)
  · exact of_decide_eq_true hopen hd

theorem skipGap_write (style : Style) (depth : Nat) (v : Json) (rest : Text) :
    skipGap (write style depth v ++ rest) = write style depth v ++ rest := by
  obtain ⟨c, t, h, -⟩ := exists_head style depth v
  have hne : ∀ d ∈ [' ', '\t', '\n', '\r', ']', '}'], char c ≠ char d := by
    intro d hd hcd
    apply write_ne style depth v rest hd (t ++ rest)
    rw [h, hcd, List.cons_append]
  rw [h, List.cons_append, skipGap_cons]
  simp only [isGap, Bool.or_eq_false_iff, decide_eq_false_iff_not]
  exact ⟨⟨⟨hne ' ' (by decide), hne '\t' (by decide)⟩, hne '\n' (by decide)⟩,
    hne '\r' (by decide)⟩

/-! ## Steps of the reader -/

section Steps

variable {digits fuel depth : Nat} {t u w : Text}

theorem readValue_atom {cs : List Char} {v : Json}
    (hcs : ∃ c rest, cs = c :: rest ∧ startsAtom c)
    (h : readAtom? digits (Text.ofChars cs ++ t) = some (v, t)) :
    readValue digits (fuel + 1) depth (Text.ofChars cs ++ t) = .ok (v, t) := by
  obtain ⟨c, rest, rfl, hc⟩ := hcs
  have hne : ∀ d ∈ ['"', '[', '{'], ∀ u, Text.ofChars (c :: rest) ++ t ≠ char d :: u := by
    have hall : ['"', '[', '{'].all fun c ↦ !startsAtom c := by decide
    rintro d hd u ⟨⟩
    have hatom := List.all_eq_true.mp hall c hd
    exact absurd hc (by simpa using hatom)
  rw [readValue, h]
  · rfl
  · exact hne '"' (by decide)
  · exact fun u _ ↦ hne '[' (by decide) u
  · exact fun _ u _ ↦ hne '[' (by decide) u
  · exact fun u _ ↦ hne '{' (by decide) u
  · exact fun _ u _ ↦ hne '{' (by decide) u

theorem readValue_string {s : Text} (h : readText? fuel t = some (s, u)) :
    readValue digits (fuel + 1) depth (char '"' :: t) = .ok (.string s, u) := by
  rw [readValue, h]
  rfl

theorem readValue_array {v : Json} {vs : List Json} (hne : ∀ r, skipGap t ≠ char ']' :: r)
    (hv : readValue digits fuel depth (skipGap t) = .ok (v, u))
    (hvs : readItems digits fuel depth (skipGap u) = .ok (vs, w)) :
    readValue digits (fuel + 1) (depth + 1) (char '[' :: t) = .ok (.array (v :: vs), w) := by
  rw [readValue]
  split
  next r h => exact absurd h (hne r)
  next => rw [hv]; dsimp only [bind, Except.bind]; rw [hvs]

theorem readValue_object {p : Text × Json} {ps : Fields} (hne : ∀ r, skipGap t ≠ char '}' :: r)
    (hp : readField digits fuel depth (skipGap t) = .ok (p, u))
    (hps : readFields digits fuel depth (skipGap u) = .ok (ps, w)) :
    readValue digits (fuel + 1) (depth + 1) (char '{' :: t)
      = .ok (.object (Fields.ofPairs (p :: ps)), w) := by
  rw [readValue]
  split
  next r h => exact absurd h (hne r)
  next => rw [hp]; dsimp only [bind, Except.bind]; rw [hps]

theorem readItems_cons {v : Json} {vs : List Json}
    (hv : readValue digits fuel depth (skipGap t) = .ok (v, u))
    (hvs : readItems digits fuel depth (skipGap u) = .ok (vs, w)) :
    readItems digits (fuel + 1) depth (char ',' :: t) = .ok (v :: vs, w) := by
  rw [readItems, hv]
  dsimp only [bind, Except.bind]
  rw [hvs]

theorem readField_colon {key : Text} {v : Json} (hkey : readText? fuel t = some (key, u))
    (hcolon : skipGap u = char ':' :: w) {r : Text}
    (hv : readValue digits fuel depth (skipGap w) = .ok (v, r)) :
    readField digits (fuel + 1) depth (char '"' :: t) = .ok ((key, v), r) := by
  rw [readField, hkey]
  dsimp only [bind, Except.bind, parsed]
  rw [hcolon]
  exact congrArg (Except.map fun r ↦ ((key, r.1), r.2)) hv

theorem readFields_cons {p : Text × Json} {ps : Fields}
    (hp : readField digits fuel depth (skipGap t) = .ok (p, u))
    (hps : readFields digits fuel depth (skipGap u) = .ok (ps, w)) :
    readFields digits (fuel + 1) depth (char ',' :: t) = .ok (p :: ps, w) := by
  rw [readFields, hp]
  dsimp only [bind, Except.bind]
  rw [hps]

end Steps

/-! ## Values -/

section Values

variable {style : Style} {digits : Nat}

theorem writeText_append (asciiOnly : Bool) (s rest : Text) :
    writeText asciiOnly s ++ rest
      = char '"' :: (s.flatMap (escapeJson asciiOnly) ++ char '"' :: rest) := by
  rw [writeText, List.cons_append, List.cons_append, List.append_assoc]
  rfl

theorem skipGap_writeText (asciiOnly : Bool) (s rest : Text) :
    skipGap (writeText asciiOnly s ++ rest) = writeText asciiOnly s ++ rest := by
  rw [writeText_append]
  exact skipGap_cons (by decide) _

theorem readField_writeText {fuel depth : Nat} {key t u : Text} {v : Json}
    (hkey : style.asciiOnly → Unpaired key)
    (hfuel : (writeText style.asciiOnly key ++ t).length ≤ fuel + 1)
    (hv : ∀ m, t.length ≤ m → readValue digits m depth (skipGap t) = .ok (v, u)) :
    readField digits (fuel + 3) depth
        (writeText style.asciiOnly key ++ char ':' :: char ' ' :: t) = .ok ((key, v), u) := by
  rw [writeText_append] at hfuel ⊢
  simp only [List.length_cons, List.length_append] at hfuel
  apply readField_colon
  · apply readText?_flatMap hkey
    simp only [List.length_cons, List.length_append]
    omega
  · exact skipGap_cons (by decide) _
  · exact hv (fuel + 2) (by omega)

theorem breaks_writeItems {k j : Nat} (vs : List Json) (rest : Text) :
    (writeItems style k vs ++ (style.gap j ++ char ']' :: rest)).Breaks isNumberChar := by
  cases vs with
  | nil =>
    apply breaks_of_isGap fun _ ↦ isGap_of_mem_gap
    exact Text.breaks_char (by decide) _
  | cons v vs =>
    obtain ⟨g, hg, -⟩ := exists_separator style k
    simp only [writeItems, hg, List.cons_append]
    exact Text.breaks_char (by decide) _

theorem breaks_writeFields {k j : Nat} (fields : Fields) (rest : Text) :
    (writeFields style k fields ++ (style.gap j ++ char '}' :: rest)).Breaks isNumberChar := by
  cases fields with
  | nil =>
    apply breaks_of_isGap fun _ ↦ isGap_of_mem_gap
    exact Text.breaks_char (by decide) _
  | cons f fields =>
    obtain ⟨g, hg, -⟩ := exists_separator style k
    simp only [writeFields, hg, List.cons_append]
    exact Text.breaks_char (by decide) _

theorem write_array_append (k : Nat) (v : Json) (vs : List Json) (rest : Text) :
    write style k (.array (v :: vs)) ++ rest
      = char '[' :: (style.gap (k + 1) ++ (write style (k + 1) v
          ++ (writeItems style (k + 1) vs ++ (style.gap k ++ char ']' :: rest)))) := by
  simp [write]

theorem write_object_append (k : Nat) (key : Text) (v : Json) (fields : Fields) (rest : Text) :
    write style k (.object ((key, v) :: fields)) ++ rest
      = char '{' :: (style.gap (k + 1) ++ (writeText style.asciiOnly key ++ char ':' :: char ' ' ::
          (write style (k + 1) v
            ++ (writeFields style (k + 1) fields ++ (style.gap k ++ char '}' :: rest))))) := by
  simp [write]

mutual

/-- **A value that was written is read back**, with whatever follows it left over. -/
theorem readValue_write {fuel depth k : Nat} {v : Json} {rest : Text}
    (hv : v.Fits style.asciiOnly digits depth) (hrest : rest.Breaks isNumberChar)
    (hfuel : (write style k v ++ rest).length ≤ fuel) :
    readValue digits fuel depth (write style k v ++ rest) = .ok (v, rest) := by
  obtain ⟨fuel, rfl⟩ : ∃ m, fuel = m + 1 := by
    have hpos := length_write_pos style k v
    rw [List.length_append] at hfuel
    exact Nat.exists_eq_add_of_le' (by omega)
  match v, hv with
  | .null, _ => exact readValue_atom ⟨'n', _, rfl, by decide⟩ (readAtom?_word (by decide) rest)
  | .bool true, _ =>
    exact readValue_atom ⟨'t', _, rfl, by decide⟩ (readAtom?_word (by decide) rest)
  | .bool false, _ =>
    exact readValue_atom ⟨'f', _, rfl, by decide⟩ (readAtom?_word (by decide) rest)
  | .int n, hv =>
    exact readValue_atom (exists_head_intDigits n) (readAtom?_intDigits hv hrest)
  | .float x, _ =>
    exact readValue_atom (exists_head_writeBinary64 x) (readAtom?_writeBinary64 x hrest)
  | .string s, hv =>
    rw [write, writeText_append] at hfuel ⊢
    exact readValue_string (readText?_flatMap hv (Nat.le_of_succ_le_succ hfuel))
  | .array [], hv =>
    obtain ⟨depth, rfl⟩ := Nat.exists_eq_add_of_le' hv.1
    change readValue digits (fuel + 1) (depth + 1) (char '[' :: char ']' :: rest) = _
    rw [readValue]
    rfl
  | .array (v :: vs), hv =>
    obtain ⟨depth, rfl⟩ := Nat.exists_eq_add_of_le' hv.1
    obtain ⟨hv, hvs⟩ := hv.2
    rw [write_array_append] at hfuel ⊢
    simp only [List.length_cons, List.length_append] at hfuel
    apply readValue_array
    · intro r
      rw [skipGap_append fun _ ↦ isGap_of_mem_gap, skipGap_write]
      exact write_ne style (k + 1) v _ (by decide) r
    · rw [skipGap_append fun _ ↦ isGap_of_mem_gap, skipGap_write]
      apply readValue_write hv (breaks_writeItems vs rest)
      simp only [List.length_cons, List.length_append]
      omega
    · apply readItems_writeItems hvs
      simp only [List.length_cons, List.length_append]
      omega
  | .object [], hv =>
    obtain ⟨depth, rfl⟩ := Nat.exists_eq_add_of_le' hv.1
    change readValue digits (fuel + 1) (depth + 1) (char '{' :: char '}' :: rest) = _
    rw [readValue]
    rfl
  | .object ((key, v) :: fields), hv =>
    obtain ⟨depth, rfl⟩ := Nat.exists_eq_add_of_le' hv.1
    obtain ⟨hnodup, hkey, hv, hfields⟩ := hv.2
    rw [write_object_append] at hfuel ⊢
    simp only [List.length_cons, List.length_append] at hfuel
    obtain ⟨fuel, rfl⟩ := Nat.exists_eq_add_of_le' (show 3 ≤ fuel by omega)
    rw [← Fields.ofPairs_eq_self hnodup]
    apply readValue_object
    · rw [skipGap_append fun _ ↦ isGap_of_mem_gap, skipGap_writeText, writeText_append]
      exact fun r h ↦ absurd (List.cons.inj h).1 (by decide)
    · rw [skipGap_append fun _ ↦ isGap_of_mem_gap, skipGap_writeText]
      apply readField_writeText hkey
      · simp only [List.length_cons, List.length_append]
        omega
      · intro m hm
        rw [skipGap_write]
        exact readValue_write hv (breaks_writeFields fields rest) hm
    · apply readFields_writeFields hfields
      simp only [List.length_cons, List.length_append]
      omega

theorem readItems_writeItems {fuel depth k j : Nat} {vs : List Json} {rest : Text}
    (hvs : FitsItems style.asciiOnly digits depth vs)
    (hfuel : (writeItems style k vs ++ (style.gap j ++ char ']' :: rest)).length ≤ fuel) :
    readItems digits fuel depth
        (skipGap (writeItems style k vs ++ (style.gap j ++ char ']' :: rest)))
      = .ok (vs, rest) := by
  match vs, hvs with
  | [], _ =>
    rw [writeItems, List.nil_append] at hfuel ⊢
    rw [List.length_append, List.length_cons] at hfuel
    obtain ⟨fuel, rfl⟩ := Nat.exists_eq_add_of_le' (show 1 ≤ fuel by omega)
    rw [skipGap_append fun _ ↦ isGap_of_mem_gap, skipGap_cons (by decide), readItems]
  | v :: vs, hvs =>
    obtain ⟨g, hseparator, hg⟩ := exists_separator style k
    have htext : writeItems style k (v :: vs) ++ (style.gap j ++ char ']' :: rest)
        = char ',' :: (g ++ (write style k v
            ++ (writeItems style k vs ++ (style.gap j ++ char ']' :: rest)))) := by
      simp [writeItems, hseparator]
    rw [htext] at hfuel ⊢
    simp only [List.length_cons, List.length_append] at hfuel
    obtain ⟨fuel, rfl⟩ := Nat.exists_eq_add_of_le' (show 1 ≤ fuel by omega)
    rw [skipGap_cons (by decide)]
    apply readItems_cons
    · rw [skipGap_append hg, skipGap_write]
      apply readValue_write hvs.1 (breaks_writeItems vs rest)
      simp only [List.length_cons, List.length_append]
      omega
    · apply readItems_writeItems hvs.2
      simp only [List.length_cons, List.length_append]
      omega

theorem readFields_writeFields {fuel depth k j : Nat} {fields : Fields} {rest : Text}
    (hfields : FitsFields style.asciiOnly digits depth fields)
    (hfuel : (writeFields style k fields ++ (style.gap j ++ char '}' :: rest)).length ≤ fuel) :
    readFields digits fuel depth
        (skipGap (writeFields style k fields ++ (style.gap j ++ char '}' :: rest)))
      = .ok (fields, rest) := by
  match fields, hfields with
  | [], _ =>
    rw [writeFields, List.nil_append] at hfuel ⊢
    rw [List.length_append, List.length_cons] at hfuel
    obtain ⟨fuel, rfl⟩ := Nat.exists_eq_add_of_le' (show 1 ≤ fuel by omega)
    rw [skipGap_append fun _ ↦ isGap_of_mem_gap, skipGap_cons (by decide), readFields]
  | (key, v) :: fields, hfields =>
    obtain ⟨hkey, hv, hfields⟩ := hfields
    obtain ⟨g, hseparator, hg⟩ := exists_separator style k
    have htext : writeFields style k ((key, v) :: fields) ++ (style.gap j ++ char '}' :: rest)
        = char ',' :: (g ++ (writeText style.asciiOnly key ++ char ':' :: char ' ' ::
            (write style k v
              ++ (writeFields style k fields ++ (style.gap j ++ char '}' :: rest))))) := by
      simp [writeFields, hseparator]
    rw [htext] at hfuel ⊢
    simp only [List.length_cons, List.length_append] at hfuel
    obtain ⟨fuel, rfl⟩ := Nat.exists_eq_add_of_le' (show 4 ≤ fuel by omega)
    rw [skipGap_cons (by decide)]
    apply readFields_cons
    · rw [skipGap_append hg, skipGap_writeText]
      apply readField_writeText hkey
      · simp only [List.length_cons, List.length_append]
        omega
      · intro m hm
        rw [skipGap_write]
        exact readValue_write hv (breaks_writeFields fields rest) hm
    · apply readFields_writeFields hfields
      simp only [List.length_cons, List.length_append]
      omega

end

end Values

/-! ## Whole texts -/

theorem parse_render {style : Style} {bounds : Bounds} {v : Json}
    (hv : v.Fits style.asciiOnly bounds.digits bounds.depth) :
    parse bounds (v.render style) = .ok v := by
  have hread : readValue bounds.digits ((v.render style).length + 1) bounds.depth
      (write style 0 v ++ []) = .ok (v, []) := by
    apply readValue_write hv Text.breaks_nil
    rw [List.append_nil]
    exact Nat.le_succ _
  have hgap := skipGap_write style 0 v []
  rw [List.append_nil] at hread hgap
  rw [render] at hread
  rw [parse, render, hgap, hread]
  rfl

theorem length_decimalDigits_of_lt {n : Nat} (h : n < longInteger) :
    (decimalDigits n).length ≤ maxDigits := by
  have hpos : 0 < maxDigits := by decide
  unfold longInteger at h
  generalize maxDigits = k at h hpos ⊢
  exact (Nat.length_toDigits_le_iff (by decide) hpos).mpr h

theorem fits_int {depth : Nat} {n : Int} (h : (int n).hasLongInteger = false) :
    (int n).Fits false maxDigits depth := by
  rw [hasLongInteger, decide_eq_false_iff_not, Nat.not_le] at h
  exact length_decimalDigits_of_lt h

mutual

/-- What can be written to a file stays within the bounds of files from outside. -/
theorem fits_outside {depth : Nat} {v : Json} (hdistinct : v.Distinct) (hheight : v.height ≤ depth)
    (hshort : v.hasLongInteger = false) : v.Fits false maxDigits depth := by
  cases v with
  | null | bool _ | float _ => exact True.intro
  | int n => exact fits_int hshort
  | string s => exact fun h ↦ absurd h Bool.false_ne_true
  | array items =>
    rw [height] at hheight
    exact ⟨by omega, fitsItems_outside hdistinct (by omega) hshort⟩
  | object fields =>
    rw [height] at hheight
    exact ⟨by omega, hdistinct.1, fitsFields_outside hdistinct.2 (by omega) hshort⟩

theorem fitsItems_outside {depth : Nat} {vs : List Json} (hdistinct : DistinctItems vs)
    (hheight : heightItems vs ≤ depth) (hshort : hasLongIntegerItems vs = false) :
    FitsItems false maxDigits depth vs := by
  cases vs with
  | nil => trivial
  | cons v vs =>
    rw [hasLongIntegerItems, Bool.or_eq_false_iff] at hshort
    rw [heightItems, Nat.max_le] at hheight
    exact ⟨fits_outside hdistinct.1 hheight.1 hshort.1,
      fitsItems_outside hdistinct.2 hheight.2 hshort.2⟩

theorem fitsFields_outside {depth : Nat} {fields : Fields} (hdistinct : DistinctFields fields)
    (hheight : heightFields fields ≤ depth) (hshort : hasLongIntegerFields fields = false) :
    FitsFields false maxDigits depth fields := by
  cases fields with
  | nil => trivial
  | cons f fields =>
    rw [hasLongIntegerFields, Bool.or_eq_false_iff] at hshort
    rw [heightFields, Nat.max_le] at hheight
    exact ⟨fun h ↦ absurd h Bool.false_ne_true, fits_outside hdistinct.1 hheight.1 hshort.1,
      fitsFields_outside hdistinct.2 hheight.2 hshort.2⟩

end

mutual

/-- A value has no more levels and no longer whole numbers than its text has characters. -/
theorem fits_length {style : Style} {digits depth : Nat} (k : Nat) {v : Json}
    (hdistinct : v.Distinct) (hdigits : (write style k v).length ≤ digits) (hdepth : (write style k v).length ≤ depth)
    (hascii : style.asciiOnly = false) : v.Fits style.asciiOnly digits depth := by
  match v with
  | .null | .bool _ | .float _ => exact True.intro
  | .int n =>
    refine le_trans ?_ hdigits
    rw [write, Text.ofChars, List.length_map, intDigits]
    split
    next => exact Nat.le_succ _
    next => exact Nat.le_refl _
  | .string s => exact fun h ↦ absurd h (by simp [hascii])
  | .array [] => exact ⟨lt_of_lt_of_le (length_write_pos style k (.array [])) hdepth, trivial⟩
  | .array (v :: vs) =>
    simp only [write, List.length_cons, List.length_append] at hdigits hdepth
    refine ⟨by omega, ?_, ?_⟩
    · exact fits_length (k + 1) hdistinct.1 (by omega) (by omega) hascii
    · exact fitsItems_length (k + 1) hdistinct.2 (by omega) (by omega) hascii
  | .object [] =>
    exact ⟨lt_of_lt_of_le (length_write_pos style k (.object [])) hdepth, List.nodup_nil, trivial⟩
  | .object ((key, v) :: fields) =>
    simp only [write, List.length_cons, List.length_append] at hdigits hdepth
    refine ⟨by omega, hdistinct.1, fun h ↦ absurd h (by simp [hascii]), ?_, ?_⟩
    · exact fits_length (k + 1) hdistinct.2.1 (by omega) (by omega) hascii
    · exact fitsFields_length (k + 1) hdistinct.2.2 (by omega) (by omega) hascii

theorem fitsItems_length {style : Style} {digits depth : Nat} (k : Nat) {vs : List Json}
    (hdistinct : DistinctItems vs) (hdigits : (writeItems style k vs).length ≤ digits)
    (hdepth : (writeItems style k vs).length ≤ depth) (hascii : style.asciiOnly = false) :
    FitsItems style.asciiOnly digits depth vs := by
  match vs with
  | [] => trivial
  | v :: vs =>
    simp only [writeItems, List.length_append] at hdigits hdepth
    exact ⟨fits_length k hdistinct.1 (by omega) (by omega) hascii,
      fitsItems_length k hdistinct.2 (by omega) (by omega) hascii⟩

theorem fitsFields_length {style : Style} {digits depth : Nat} (k : Nat) {fields : Fields}
    (hdistinct : DistinctFields fields) (hdigits : (writeFields style k fields).length ≤ digits)
    (hdepth : (writeFields style k fields).length ≤ depth) (hascii : style.asciiOnly = false) :
    FitsFields style.asciiOnly digits depth fields := by
  match fields with
  | [] => trivial
  | (key, v) :: fields =>
    simp only [writeFields, List.length_append, List.length_cons] at hdigits hdepth
    refine ⟨fun h ↦ absurd h (by simp [hascii]), ?_, ?_⟩
    · exact fits_length k hdistinct.1 (by omega) (by omega) hascii
    · exact fitsFields_length k hdistinct.2 (by omega) (by omega) hascii

end

/-- **The text of a file is read back** by the reader of files from outside. -/
theorem parse_pretty {v : Json} (hdistinct : v.Distinct) (hheight : v.height ≤ 990)
    (hshort : v.hasLongInteger = false) : parse .outside v.pretty = .ok v :=
  parse_render (fits_outside hdistinct hheight hshort)

/-- **A text on one line is read back**, however large the value is. -/
theorem parse?_oneLine {v : Json} (hdistinct : v.Distinct) : parse? v.oneLine = some v := by
  rw [parse?, oneLine, parse_render (fits_length 0 hdistinct (Nat.le_refl _) (Nat.le_refl _) rfl)]
  rfl

end Json

end AgentFlow
