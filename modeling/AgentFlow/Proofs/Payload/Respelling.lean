import AgentFlow.Proofs.Payload.Record
import Mathlib.Data.List.Forall2

/-!
# Payloads in other spellings

Which of its two spellings a field goes by is up to the payload. A *format* lists the fields that
are looked for in an object, each with how its value may be respelled in turn. An object is
respelled by turning canvas spellings into stored ones, any number of them; what the format does not
name is left alone, and no key comes to stand twice (`Fields.Respelled`).

A reader of records sees of an object only what it finds under its keys. Since the keys of a format
share no name, a field is found after the respelling exactly if it was found before, with a value
that is the old one or a respelled one (`Fields.Respelled.matches`). So no reader that is put
together from such fields tells the two objects apart (`Record.Respects`). The way to a fault does
tell the spelling, which is why readings are compared by what they accept (`Reading.Agree`).
-/

namespace AgentFlow

/-! ## Readings that agree -/

namespace Reading

variable {α β γ : Type}

/-- Whether two readings accept the same value with the same tallies, or both refuse. -/
inductive Agree : Reading α → Reading α → Prop
  /-- Both accept. -/
  | ok (a : Accepted α) : Agree (.ok a) (.ok a)
  /-- Both refuse. -/
  | error (faults others : List Fault) : Agree (.error faults) (.error others)

namespace Agree

variable {r q : Reading α}

theorem refl : ∀ r : Reading α, r.Agree r
  | .ok a => .ok a
  | .error faults => .error faults faults

theorem value?_eq (h : r.Agree q) : r.value? = q.value? := by
  rcases h with a | _ <;> rfl

theorem toOption_eq (h : r.Agree q) : r.toOption = q.toOption := by
  rcases h with a | _ <;> rfl

theorem map (h : r.Agree q) (f : α → β) : (Reading.map f r).Agree (Reading.map f q) := by
  rcases h with a | ⟨faults, others⟩
  · exact refl _
  · exact error faults others

theorem under (h : r.Agree q) (place next : Place) :
    (Reading.under place r).Agree (Reading.under next q) := by
  rcases h with a | _
  · exact ok a
  · exact error _ _

theorem both {r' q' : Reading β} (h : r.Agree q) (h' : r'.Agree q') (f : α → β → γ) :
    (Reading.both f r r').Agree (Reading.both f q q') := by
  rcases h with a | _
  · rcases h' with b | _
    · exact refl _
    · exact error _ _
  · rcases h' with b | _ <;> exact error _ _

/-- A field is tallied alike under either name. -/
theorem found (h : r.Agree q) (k : Key) (name other : String) :
    (Record.found k name r).Agree (Record.found k other q) := by
  rcases h with a | _
  · exact refl _
  · exact error _ _

end Agree

/-- Whether a reader does not tell related values apart. -/
def Respects (R : Json → Json → Prop) (read : Json → Reading α) : Prop :=
  ∀ ⦃v w⦄, R v w → (read v).Agree (read w)

theorem respects_eq (read : Json → Reading α) : Respects Eq read := by
  rintro v _ rfl
  exact .refl _

section Respects

variable {R : Json → Json → Prop} {read : Json → Reading α}

theorem Respects.nullable (hnull : ∀ ⦃v w⦄, R v w → (v = .null ↔ w = .null))
    (h : Respects R read) : Respects R (nullable read) := by
  intro v w hvw
  by_cases hv : v = .null
  · rw [hv, (hnull hvw).mp hv]
    exact .refl _
  · have hw : w ≠ .null := mt (hnull hvw).mpr hv
    rw [Reading.nullable, Reading.nullable]
    · exact (h hvw).map some
    · exact hw
    · exact hv

theorem Respects.items (h : Respects R read) {vs ws : List Json} (hvs : List.Forall₂ R vs ws)
    (i : Nat) : (items read i vs).Agree (items read i ws) := by
  induction hvs generalizing i with
  | nil => exact .refl _
  | cons hvw _ ih => exact ((h hvw).under _ _).both (ih (i + 1)) _

/-- A union chooses by the tallies, so its alternatives have to agree on them as well. -/
theorem Respects.oneOf {members : List (String × (Json → Reading α))}
    (h : ∀ m ∈ members, Respects R m.2) : Respects R (oneOf members) := by
  intro v w hvw
  have haccepted : (members.filterMap fun m ↦ (m.2 v).toOption)
      = members.filterMap fun m ↦ (m.2 w).toOption :=
    List.filterMap_congr fun m hm ↦ (h m hm hvw).toOption_eq
  rw [Reading.oneOf, Reading.oneOf, haccepted]
  split
  next => exact .ok _
  next => exact .error _ _

end Respects

end Reading

/-! ## Respelled values -/

/-- The fields that are looked for in an object, each with how its value may be respelled. -/
abbrev Format := List (Key × (Json → Json → Prop))

/-- How one field of an object may be respelled. -/
inductive Field.Respelled (format : Format) : Text × Json → Text × Json → Prop
  /-- A field that is not looked for stays. -/
  | other {name : Text} (v : Json) (h : ∀ e ∈ format, ∀ s, name ≠ e.1.spell s) :
    Respelled format (name, v) (name, v)
  /-- A field keeps its spelling. -/
  | kept {k : Key} {R : Json → Json → Prop} (hk : (k, R) ∈ format) (s : Spelling) {v w : Json}
    (h : R v w) : Respelled format (k.spell s, v) (k.spell s, w)
  /-- A field on the canvas gets the spelling of stored records. -/
  | changed {k : Key} {R : Json → Json → Prop} (hk : (k, R) ∈ format) {v w : Json} (h : R v w) :
    Respelled format (k.wire, v) (k.plain, w)

/-- Whether an object has the fields of another one, in order, in spellings of which some may have
changed. Neither repeats a key. -/
structure Fields.Respelled (format : Format) (fields others : Fields) : Prop where
  forall₂ : List.Forall₂ (Field.Respelled format) fields others
  nodup : (fields.map Prod.fst).Nodup
  nodup_others : (others.map Prod.fst).Nodup

namespace Json

/-- Whether a value is another one, or an object of a format that is respelled. -/
inductive Respelled (format : Format) : Json → Json → Prop
  /-- A value may stay. -/
  | refl (v : Json) : Respelled format v v
  /-- An object is respelled field by field. -/
  | object {fields others : Fields} (h : fields.Respelled format others) :
    Respelled format (.object fields) (.object others)

/-- Whether a value is another one, or an array whose items are respelled. -/
inductive RespelledItems (R : Json → Json → Prop) : Json → Json → Prop
  /-- A value may stay. -/
  | refl (v : Json) : RespelledItems R v v
  /-- An array is respelled item by item. -/
  | array {vs ws : List Json} (h : List.Forall₂ R vs ws) : RespelledItems R (.array vs) (.array ws)

variable {format : Format} {v w : Json}

theorem Respelled.ofOption {α : Type} {f g : α → Json} (h : ∀ a, (f a).Respelled format (g a)) :
    ∀ o, (Json.ofOption f o).Respelled format (Json.ofOption g o)
  | none => .refl _
  | some a => h a

theorem RespelledItems.ofList {α : Type} {R : Json → Json → Prop} {f g : α → Json}
    (h : ∀ a, R (f a) (g a)) (l : List α) : RespelledItems R (ofList f l) (ofList g l) := by
  refine .array (List.forall₂_map_left_iff.mpr (List.forall₂_map_right_iff.mpr ?_))
  exact List.forall₂_same.mpr fun a _ ↦ h a

theorem Respelled.null_iff (h : Respelled format v w) : v = .null ↔ w = .null := by
  rcases h with v | hfields
  · rfl
  · exact iff_of_false nofun nofun

/-- An object does not become empty, or stop being so. -/
theorem Respelled.isTruthy_eq (h : Respelled format v w) : v.isTruthy = w.isTruthy := by
  rcases h with v | hfields
  · rfl
  · rcases hfields.forall₂ with _ | _ <;> rfl

end Json

/-! ### Records in both spellings -/

/-- Whether two fields that are written have one key, and the value of one is the other's respelled.
-/
inductive Format.Relates (format : Format) : Key × Json → Key × Json → Prop
  | mk {k : Key} {R : Json → Json → Prop} {v w : Json} (hk : format.lookup k = some R) (h : R v w) :
    Relates format (k, v) (k, w)

theorem Format.Relates.key_eq {format : Format} {e f : Key × Json} (h : format.Relates e f) :
    e.1 = f.1 := by
  rcases h with ⟨_, _⟩
  rfl

/-- **A record in stored spellings is the record on the canvas respelled.** -/
theorem Json.respelled_record {format : Format} {written others : List (Key × Json)}
    (hkeys : AllApart written) (h : List.Forall₂ format.Relates written others) :
    (record .wire written).Respelled format (record .plain others) := by
  have hsame : written.map Prod.fst = others.map Prod.fst := by
    rw [← List.forall₂_eq_eq_eq, List.forall₂_map_left_iff, List.forall₂_map_right_iff]
    exact h.imp fun _ _ hef ↦ hef.key_eq
  have hothers : AllApart others := by
    rw [AllApart, ← hsame]
    exact hkeys
  refine .object ⟨?_, Fields.nodup_spelled hkeys, Fields.nodup_spelled hothers⟩
  refine List.forall₂_map_left_iff.mpr (List.forall₂_map_right_iff.mpr (h.imp ?_))
  rintro _ _ ⟨hk, hvw⟩
  exact .changed (AllApart.mem_of_lookup hk) hvw

/-! ## Finding respelled fields -/

theorem AllApart.apart {β : Type} {written : List (Key × β)} (hkeys : AllApart written)
    {e f : Key × β} (he : e ∈ written) (hf : f ∈ written) (hne : e ≠ f) : e.1.Apart f.1 := by
  have hsymm : Std.Symm fun e f : Key × β ↦ e.1.Apart f.1 := ⟨fun _ _ h ↦ h.symm⟩
  exact (List.pairwise_map.mp hkeys).forall he hf hne

theorem optionRel_refl {α : Type} {r : α → α → Prop} (h : ∀ a, r a a) :
    ∀ o : Option α, Option.Rel r o o
  | none => .none
  | some a => .some (h a)

section SeenBy

variable {format : Format} {k : Key} {R : Json → Json → Prop}

/-- What respelling does to a field as one key sees it. -/
inductive Field.SeenBy (k : Key) (R : Json → Json → Prop) : Text × Json → Text × Json → Prop
  /-- The field goes by the names of another key, or of none. -/
  | other {name next : Text} (v w : Json) (h : ∀ s, name ≠ k.spell s) (h' : ∀ s, next ≠ k.spell s) :
    SeenBy k R (name, v) (next, w)
  /-- The field is found in the spelling that it had. -/
  | kept (s : Spelling) {v w : Json} (h : R v w) : SeenBy k R (k.spell s, v) (k.spell s, w)
  /-- The field changes its spelling. -/
  | changed {v w : Json} (h : R v w) : SeenBy k R (k.wire, v) (k.plain, w)

/-- A key sees nothing of what happens to the fields of other keys. -/
theorem Field.Respelled.seenBy {f g : Text × Json} (h : Field.Respelled format f g)
    (hkeys : AllApart format) (hk : (k, R) ∈ format) : Field.SeenBy k R f g := by
  rcases h with ⟨v, hother⟩ | @⟨l, S, hl, s, v, w, hvw⟩ | @⟨l, S, hl, v, w, hvw⟩
  · exact .other v v (hother _ hk) (hother _ hk)
  · by_cases hsame : (l, S) = (k, R)
    · obtain ⟨rfl, rfl⟩ := Prod.mk.inj hsame
      exact .kept s hvw
    · have hapart : l.Apart k := hkeys.apart hl hk hsame
      have hne : ∀ t, Text.ofString (l.spell s) ≠ k.spell t := fun t ↦
        mt Text.ofString_inj.mp (hapart.spell_ne s t)
      exact .other v w hne hne
  · by_cases hsame : (l, S) = (k, R)
    · obtain ⟨rfl, rfl⟩ := Prod.mk.inj hsame
      exact .changed hvw
    · have hapart : l.Apart k := hkeys.apart hl hk hsame
      have hne : ∀ s t, Text.ofString (l.spell s) ≠ k.spell t := fun s t ↦
        mt Text.ofString_inj.mp (hapart.spell_ne s t)
      exact .other v w (hne .wire) (hne .plain)

namespace Fields

variable {fields others : Fields} {v : Json}

theorem get?_eq_none_iff {key : Text} : fields.get? key = none ↔ key ∉ fields.map Prod.fst := by
  simp only [get?, List.lookup_eq_none_iff, List.mem_map, bne_iff_ne, not_exists,
    not_and]
  exact forall₂_congr fun f _ ↦ ne_comm

theorem find?_cons_of_ne {name : Text} (h : ∀ s, name ≠ k.spell s) :
    find? ((name, v) :: fields) k = find? fields k := by
  have hwire : Text.ofString k.wire ≠ name := (h .wire).symm
  have hplain : Text.ofString k.plain ≠ name := (h .plain).symm
  rw [find?, get?_cons_of_ne hwire, get?_cons_of_ne hplain, find?]

theorem find?_cons_wire : find? ((Text.ofString k.wire, v) :: fields) k = some (k.wire, v) := by
  rw [find?, get?_cons_self]

/-- A stored spelling counts if the canvas spelling is not there. -/
theorem find?_cons_plain (h : Text.ofString k.wire ≠ k.plain) :
    find? ((Text.ofString k.plain, v) :: fields) k
      = ((fields.get? k.wire).map fun u ↦ (k.wire, u)).or (some (k.plain, v)) := by
  rw [find?, get?_cons_of_ne h, get?_cons_self]
  cases fields.get? k.wire <;> rfl

/-- Values that are found alike, under the canvas spelling in both objects or in neither. -/
theorem get?_rel_of_find?_rel
    (hfind : Option.Rel (fun p q ↦ R p.2 q.2) (fields.find? k) (others.find? k))
    (hwire : (fields.get? k.wire).isSome = (others.get? k.wire).isSome) :
    Option.Rel R (fields.get? k.wire) (others.get? k.wire) := by
  rw [find?, find?] at hfind
  generalize fields.get? k.wire = o at hfind hwire ⊢
  generalize others.get? k.wire = p at hfind hwire ⊢
  rcases o with - | v <;> rcases p with - | w
  · exact .none
  · cases hwire
  · cases hwire
  · have hvw : R v w := by simpa using hfind
    exact .some hvw

/-- A field that is spelled alike everywhere is found under that name. -/
theorem find?_same (fields : Fields) (name : String) :
    fields.find? (.same name) = (fields.get? name).map fun v ↦ (name, v) := by
  rw [find?, Key.same]
  cases fields.get? name <;> rfl

theorem get?_filter {p : Text → Bool} {key : Text} (h : p key) (fields : Fields) :
    get? (fields.filter fun f ↦ p f.1) key = fields.get? key := by
  induction fields with
  | nil => rfl
  | cons f fields ih =>
    by_cases hkey : key = f.1
    · rw [List.filter_cons_of_pos (hkey ▸ h), hkey, get?_cons_self, get?_cons_self]
    · rw [get?_cons_of_ne hkey, ← ih, List.filter_cons]
      split
      next => exact get?_cons_of_ne hkey _ f.2
      next => rfl

variable (h : List.Forall₂ (Field.SeenBy k R) fields others)
include h

/-- Respelling never gives a field its canvas spelling. -/
theorem wire_notMem (hwire : Text.ofString k.wire ∉ fields.map Prod.fst) :
    Text.ofString k.wire ∉ others.map Prod.fst := by
  induction h with
  | nil => exact hwire
  | cons hfg _ ih =>
    simp only [List.map_cons, List.mem_cons, not_or] at hwire ⊢
    refine ⟨?_, ih hwire.2⟩
    rcases hfg with ⟨_, _, _, hnext⟩ | ⟨s, _⟩ | _
    · exact (hnext .wire).symm
    · exact hwire.1
    · exact absurd rfl hwire.1

/-- As long as no field gets the stored spelling of a key, it is found in the canvas spelling after
the respelling exactly if it was before. -/
theorem get?_wire_rel (hplain : Text.ofString k.plain ∉ others.map Prod.fst) :
    Option.Rel R (fields.get? k.wire) (others.get? k.wire) := by
  induction h with
  | nil => exact .none
  | cons hfg _ ih =>
    simp only [List.map_cons, List.mem_cons, not_or] at hplain
    rcases hfg with ⟨v, w, hname, hnext⟩ | ⟨s, hvw⟩ | _
    · have hwire : Text.ofString k.wire ≠ _ := (hname .wire).symm
      have hwire' : Text.ofString k.wire ≠ _ := (hnext .wire).symm
      rw [get?_cons_of_ne hwire, get?_cons_of_ne hwire']
      exact ih hplain.2
    · cases s with
      | wire =>
        rw [Key.spell, get?_cons_self, get?_cons_self]
        exact .some hvw
      | plain => exact absurd rfl hplain.1
    · exact absurd rfl hplain.1

theorem find?_rel (hfields : (fields.map Prod.fst).Nodup) (hothers : (others.map Prod.fst).Nodup) :
    Option.Rel (fun p q ↦ R p.2 q.2) (fields.find? k) (others.find? k) := by
  induction h with
  | nil => exact .none
  | cons hfg hrest ih =>
    obtain ⟨hfieldsHead, hfieldsRest⟩ := List.nodup_cons.mp hfields
    obtain ⟨hothersHead, hothersRest⟩ := List.nodup_cons.mp hothers
    rcases hfg with ⟨v, w, hname, hnext⟩ | @⟨s, v, w, hvw⟩ | @⟨v, w, hvw⟩
    · rw [find?_cons_of_ne hname, find?_cons_of_ne hnext]
      exact ih hfieldsRest hothersRest
    · cases s with
      | wire =>
        rw [Key.spell, find?_cons_wire, find?_cons_wire]
        exact .some hvw
      | plain =>
        rw [Key.spell]
        by_cases hsame : Text.ofString k.wire = k.plain
        · rw [← hsame, find?_cons_wire, find?_cons_wire]
          exact .some hvw
        · -- the canvas spelling may stand further on, and then it counts on both sides
          have hwire := get?_wire_rel hrest hothersHead
          rw [find?_cons_plain hsame, find?_cons_plain hsame]
          generalize get? _ (Text.ofString k.wire) = o at hwire ⊢
          generalize get? _ (Text.ofString k.wire) = p at hwire ⊢
          rcases hwire with huu | _
          · exact .some huu
          · exact .some hvw
    · rw [find?_cons_wire]
      by_cases hsame : Text.ofString k.wire = k.plain
      · rw [← hsame, find?_cons_wire]
        exact .some hvw
      · have hwire := get?_eq_none_iff.mpr (wire_notMem hrest hfieldsHead)
        rw [find?_cons_plain hsame, hwire]
        exact .some hvw

end Fields

end SeenBy

/-- Whether the fields of a format are found in two objects alike, under either name. -/
def Fields.Matches (format : Format) (fields others : Fields) : Prop :=
  ∀ ⦃k R⦄, (k, R) ∈ format →
    Option.Rel (fun p q ↦ R p.2 q.2) (fields.find? k) (others.find? k)

/-- **Respelled fields are found.** -/
theorem Fields.Respelled.matches {format : Format} {fields others : Fields}
    (h : fields.Respelled format others) (hkeys : AllApart format) :
    Fields.Matches format fields others := by
  intro k R hk
  have hseen : List.Forall₂ (Field.SeenBy k R) fields others :=
    h.forall₂.imp fun _ _ hfg ↦ hfg.seenBy hkeys hk
  exact Fields.find?_rel hseen h.nodup h.nodup_others

/-! ### Setting a field in both -/

namespace Fields

variable {fields others : Fields} {key l : Text} {v w : Json}

theorem get?_put_self : (fields.put key v).get? key = some v := by
  induction fields with
  | nil => exact get?_cons_self [] key v
  | cons f fields ih =>
    rw [put]
    split
    next => exact get?_cons_self fields key v
    next hne => rw [get?_cons_of_ne (Ne.symm hne), ih]

theorem get?_put_of_ne (h : l ≠ key) : (fields.put key v).get? l = fields.get? l := by
  induction fields with
  | nil => exact get?_cons_of_ne h [] v
  | cons f fields ih =>
    rw [put]
    split
    next hkey => rw [get?_cons_of_ne h, get?_cons_of_ne (hkey ▸ h)]
    next =>
      by_cases hl : l = f.1
      · rw [hl, get?_cons_self, get?_cons_self]
      · rw [get?_cons_of_ne hl, get?_cons_of_ne hl, ih]

/-- A field that is set on the canvas is found alike in both objects, and so are all others. -/
theorem Matches.put {format : Format} {k : Key} {R : Json → Json → Prop}
    (h : Matches format fields others) (hkeys : AllApart format) (hk : (k, R) ∈ format)
    (hvw : R v w) : Matches format (fields.put k.wire v) (others.put k.wire w) := by
  intro l S hl
  by_cases hsame : (l, S) = (k, R)
  · obtain ⟨rfl, rfl⟩ := Prod.mk.inj hsame
    rw [find?, find?, get?_put_self, get?_put_self]
    exact .some hvw
  · have hapart : l.Apart k := hkeys.apart hl hk hsame
    have hwire : Text.ofString l.wire ≠ k.wire := mt Text.ofString_inj.mp hapart.1
    have hplain : Text.ofString l.plain ≠ k.wire := mt Text.ofString_inj.mp hapart.2.2.1
    have hfind : ∀ (m : Fields) (u : Json), (m.put k.wire u).find? l = m.find? l := by
      intro m u
      rw [find?, find?, get?_put_of_ne hwire, get?_put_of_ne hplain]
    rw [hfind, hfind]
    exact h hl

end Fields

/-! ## Readers of records -/

namespace Record

open Reading (Agree)

variable {α β : Type} {format : Format} {r : Record α}

/-- Whether a reader of fields does not tell objects apart in which the fields of a format are found
alike. -/
def Respects (format : Format) (r : Record α) : Prop :=
  ∀ ⦃fields others⦄, Fields.Matches format fields others → (r.run fields).Agree (r.run others)

theorem Respects.seq {f : Record (α → β)} (hf : f.Respects format) (hr : r.Respects format) :
    (f <*> r).Respects format := fun _ _ h ↦ (hf h).both (hr h) fun g a ↦ g a

theorem Respects.map (hr : r.Respects format) (g : α → β) : (g <$> r).Respects format :=
  .seq (f := pure g) (fun _ _ _ ↦ .refl _) hr

section Fields

variable {k : Key} {R : Json → Json → Prop} {d : α} {read : Json → Reading α}

theorem Respects.required (hk : format.lookup k = some R) (h : Reading.Respects R read) :
    (required k read).Respects format := by
  intro fields others hmatch
  have hfind := hmatch (AllApart.mem_of_lookup hk)
  rw [Record.required]
  dsimp only
  generalize fields.find? k = o at hfind ⊢
  generalize others.find? k = p at hfind ⊢
  rcases hfind with hvw | _
  · exact (h hvw).found _ _ _
  · exact .error _ _

theorem Respects.optional (hk : format.lookup k = some R) (h : Reading.Respects R read) :
    (optional k d read).Respects format := by
  intro fields others hmatch
  have hfind := hmatch (AllApart.mem_of_lookup hk)
  rw [Record.optional]
  dsimp only
  generalize fields.find? k = o at hfind ⊢
  generalize others.find? k = p at hfind ⊢
  rcases hfind with hvw | _
  · exact (h hvw).found _ _ _
  · exact .refl _

/-- A field whose value stays may have any reader. -/
theorem Respects.required_kept (hk : format.lookup k = some Eq) :
    (Record.required k read).Respects format := .required hk (Reading.respects_eq read)

theorem Respects.optional_kept (hk : format.lookup k = some Eq) :
    (Record.optional k d read).Respects format := .optional hk (Reading.respects_eq read)

end Fields

/-- A reader of records takes a respelled object for what it takes the object for. -/
theorem Respects.read (hr : r.Respects format) (hkeys : AllApart format) :
    Reading.Respects (Json.Respelled format) r.read := by
  rintro _ _ (v | hfields)
  · exact .refl _
  · exact hr (hfields.matches hkeys)

/-- A record of one required and one optional field whose values stay. -/
theorem respects_read_pair {γ : Type} {k l : Key} {make : α → β → γ} {d : β}
    {readFirst : Json → Reading α} {readSecond : Json → Reading β}
    (hk : format.lookup k = some Eq) (hl : format.lookup l = some Eq) (hkeys : AllApart format) :
    Reading.Respects (Json.Respelled format)
      (make <$> Record.required k readFirst <*> .optional l d readSecond).read :=
  Respects.read (.seq (.map (.required_kept hk) _) (.optional_kept hl)) hkeys

end Record

namespace Reading

variable {α : Type} {format : Format} {R : Json → Json → Prop} {read : Json → Reading α}

theorem Respects.nullable_respelled (h : Respects (Json.Respelled format) read) :
    Respects (Json.Respelled format) (Reading.nullable read) :=
  h.nullable fun _ _ hvw ↦ hvw.null_iff

theorem Respects.list (h : Respects R read) :
    Respects (Json.RespelledItems R) (list read) := by
  rintro _ _ (v | hitems)
  · exact .refl _
  · exact h.items hitems 0

end Reading

end AgentFlow
