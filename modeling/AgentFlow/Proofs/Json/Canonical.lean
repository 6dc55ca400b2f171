import AgentFlow.Proofs.Json.Ascii
import Mathlib.Data.List.Nodup
import Mathlib.Data.List.Perm.Basic

/-!
# Canonical texts

Two values are alike (`Json.Alike`) if they differ in the order of keys alone, at any depth; a text
counts by its joined halves. Sorting the keys of an object permutes its fields, and two sorted
objects without repeated keys that hold the same fields are the same. So values are alike exactly if
sorting their keys makes them the same, and the canonical text stands for a value up to likeness
(`Json.canonical_eq_iff`).
-/

namespace AgentFlow

/-! ## The order of texts -/

namespace CodePoint

instance : LE CodePoint := ⟨fun c d ↦ c.toNat ≤ d.toNat⟩

instance : Std.IsLinearOrder CodePoint where
  le_refl _ := Nat.le_refl _
  le_trans _ _ _ := Nat.le_trans
  le_antisymm _ _ hcd hdc := toNat_injective (Nat.le_antisymm hcd hdc)
  le_total _ _ := Nat.le_total _ _

instance : Std.LawfulOrderLT CodePoint where
  lt_iff _ _ := Nat.lt_iff_le_and_not_ge

end CodePoint

/-! ## Likeness -/

/-- Whether two texts are the same once the halves that meet in them are joined. -/
def Text.Alike (t u : Text) : Prop := Json.joinHalves t = Json.joinHalves u

namespace Json

mutual

/-- Whether two values differ in the order of keys alone. -/
def Alike : Json → Json → Prop
  | .string t, w => ∃ u, w = .string u ∧ t.Alike u
  | .array vs, w => ∃ ws, w = .array ws ∧ AlikeItems vs ws
  | .object fields, w =>
    ∃ others, w = .object others ∧
      (∀ key, key ∈ fields.map Prod.fst ↔ key ∈ others.map Prod.fst) ∧ AlikeFields fields others
  | v, w => v = w

/-- Whether the values of two lists differ, one by one, in the order of keys alone. -/
def AlikeItems : List Json → List Json → Prop
  | [], ws => ws = []
  | v :: vs, ws => ∃ w rest, ws = w :: rest ∧ Alike v w ∧ AlikeItems vs rest

/-- Whether each field of an object has one of its name and like it in another. -/
def AlikeFields : Fields → Fields → Prop
  | [], _ => True
  | (key, v) :: fields, others =>
    (∃ w, (key, w) ∈ others ∧ Alike v w) ∧ AlikeFields fields others

end

theorem alikeFields_iff {fields others : Fields} :
    AlikeFields fields others ↔ ∀ f ∈ fields, ∃ w, (f.1, w) ∈ others ∧ f.2.Alike w := by
  induction fields with
  | nil => simp [AlikeFields]
  | cons f fields ih => rw [AlikeFields, ih, List.forall_mem_cons]

/-! ## Sorted fields -/

section Sorted

variable {fields others : Fields}

theorem perm_insertSorted (key : Text) (v : Json) (fields : Fields) :
    (insertSorted key v fields).Perm ((key, v) :: fields) := by
  induction fields with
  | nil => exact List.Perm.refl _
  | cons f fields ih =>
    rw [insertSorted]
    split
    next => exact List.Perm.refl _
    next => exact (ih.cons f).trans (List.Perm.swap _ _ _)

theorem perm_sortKeysFields (fields : Fields) :
    (sortKeysFields fields).Perm (fields.map fun f ↦ (f.1, f.2.sortKeys)) := by
  induction fields with
  | nil => exact List.Perm.refl _
  | cons f fields ih => exact (perm_insertSorted _ _ _).trans (ih.cons _)

theorem pairwise_insertSorted (key : Text) (v : Json)
    (h : fields.Pairwise fun f g ↦ f.1 ≤ g.1) :
    (insertSorted key v fields).Pairwise fun f g ↦ f.1 ≤ g.1 := by
  induction fields with
  | nil => exact List.pairwise_singleton _ _
  | cons f fields ih =>
    obtain ⟨hf, hfields⟩ := List.pairwise_cons.mp h
    rw [insertSorted]
    split
    next hle =>
      refine List.pairwise_cons.mpr ⟨fun g hg ↦ ?_, h⟩
      obtain rfl | hg := List.mem_cons.mp hg
      · exact hle
      · exact List.le_trans hle (hf g hg)
    next hle =>
      refine List.pairwise_cons.mpr ⟨fun g hg ↦ ?_, ih hfields⟩
      obtain rfl | hg := List.mem_cons.mp ((perm_insertSorted _ _ _).mem_iff.mp hg)
      · exact (List.le_total _ _).resolve_left hle
      · exact hf g hg

theorem pairwise_sortKeysFields (fields : Fields) :
    (sortKeysFields fields).Pairwise fun f g ↦ f.1 ≤ g.1 := by
  induction fields with
  | nil => exact List.Pairwise.nil
  | cons f fields ih => exact pairwise_insertSorted _ _ ih

/-- A field whose value has sorted keys and joined halves. -/
def normalField (f : Text × Json) : Text × Json := (f.1, f.2.sortKeys.joined)

theorem perm_normalFields (fields : Fields) :
    (joinedFields (sortKeysFields fields)).Perm (fields.map normalField) := by
  have hperm := (perm_sortKeysFields fields).map fun f ↦ (f.1, f.2.joined)
  rw [List.map_map] at hperm
  rw [joinedFields_eq_map]
  exact hperm

theorem pairwise_normalFields (fields : Fields) :
    (joinedFields (sortKeysFields fields)).Pairwise fun f g ↦ f.1 ≤ g.1 := by
  rw [joinedFields_eq_map]
  exact List.pairwise_map.mpr (pairwise_sortKeysFields fields)

theorem nodup_map_normalField (h : (fields.map Prod.fst).Nodup) :
    ((fields.map normalField).map Prod.fst).Nodup := by
  rw [List.map_map]
  exact h

theorem eq_of_key_eq (h : (fields.map Prod.fst).Nodup) {f g : Text × Json} (hf : f ∈ fields)
    (hg : g ∈ fields) (hkey : f.1 = g.1) : f = g :=
  List.inj_on_of_nodup_map h hf hg hkey

/-- Sorted objects without repeated keys are the same if they hold the same fields. -/
theorem normalFields_eq_iff (hfields : (fields.map Prod.fst).Nodup)
    (hothers : (others.map Prod.fst).Nodup) :
    joinedFields (sortKeysFields fields) = joinedFields (sortKeysFields others) ↔
      ∀ f, f ∈ fields.map normalField ↔ f ∈ others.map normalField := by
  have hnodup := nodup_map_normalField hfields
  rw [← List.perm_ext_iff_of_nodup (List.Nodup.of_map _ hnodup)
    (List.Nodup.of_map _ (nodup_map_normalField hothers))]
  constructor
  · intro h
    exact (perm_normalFields fields).symm.trans (h ▸ perm_normalFields others)
  · intro h
    have hperm := (perm_normalFields fields).trans (h.trans (perm_normalFields others).symm)
    -- sorted lists that are permutations are the same, as two fields of one key are one field
    refine hperm.eq_of_pairwise (fun f g hf hg hfg hgf ↦ ?_) (pairwise_normalFields fields)
      (pairwise_normalFields others)
    exact eq_of_key_eq hnodup ((perm_normalFields fields).mem_iff.mp hf)
      ((perm_normalFields fields).mem_iff.mp (hperm.mem_iff.mpr hg)) (List.le_antisymm hfg hgf)

/-- Two objects hold the same fields once these are normal if they have the same keys, and each
field of the one has one in the other that becomes the same. -/
theorem forall_mem_normalFields_iff (hothers : (others.map Prod.fst).Nodup) :
    (∀ f, f ∈ fields.map normalField ↔ f ∈ others.map normalField) ↔
      (∀ key, key ∈ fields.map Prod.fst ↔ key ∈ others.map Prod.fst) ∧
        ∀ f ∈ fields, ∃ w, (f.1, w) ∈ others ∧ f.2.sortKeys.joined = w.sortKeys.joined := by
  have hkeys : ∀ l : Fields, (l.map normalField).map Prod.fst = l.map Prod.fst := fun l ↦
    List.map_map
  constructor
  · intro h
    refine ⟨fun key ↦ ?_, fun f hf ↦ ?_⟩
    · rw [← hkeys fields, ← hkeys others]
      simp only [List.mem_map (f := Prod.fst), h]
    · obtain ⟨g, hg, hgf⟩ := List.mem_map.mp ((h _).mp (List.mem_map_of_mem hf))
      obtain ⟨hkey, hvalue⟩ := Prod.mk.inj hgf
      exact ⟨g.2, hkey ▸ hg, hvalue.symm⟩
  · rintro ⟨hsame, hvalues⟩ f
    constructor
    · intro hf
      obtain ⟨g, hg, rfl⟩ := List.mem_map.mp hf
      obtain ⟨w, hw, hgw⟩ := hvalues g hg
      exact List.mem_map.mpr ⟨(g.1, w), hw, Prod.ext rfl hgw.symm⟩
    · intro hf
      obtain ⟨g, hg, rfl⟩ := List.mem_map.mp hf
      obtain ⟨e, he, hkey⟩ := List.mem_map.mp ((hsame g.1).mpr (List.mem_map_of_mem hg))
      obtain ⟨w, hw, hew⟩ := hvalues e he
      -- the field of that name in the other object is the given one
      obtain rfl : (e.1, w) = g := eq_of_key_eq hothers hw hg hkey
      exact List.mem_map.mpr ⟨e, he, Prod.ext rfl hew⟩

end Sorted

/-! ## Likeness and sorting -/

mutual

/-- **Values are alike exactly if sorting their keys makes them the same.** -/
theorem normal_eq_iff {v w : Json} (hv : v.Distinct) (hw : w.Distinct) :
    v.sortKeys.joined = w.sortKeys.joined ↔ v.Alike w := by
  match v with
  | .null | .bool _ | .int _ | .float _ => cases w <;> simp [sortKeys, joined, Alike]
  | .string t => cases w <;> simp [sortKeys, joined, Alike, Text.Alike]
  | .array vs =>
    cases w with
    | array ws =>
      simp only [sortKeys, joined, Alike, array.injEq, exists_eq_left']
      exact normalItems_eq_iff hv hw
    | _ => simp [sortKeys, joined, Alike]
  | .object fields =>
    cases w with
    | object others =>
      simp only [sortKeys, joined, Alike, object.injEq, exists_eq_left']
      rw [normalFields_eq_iff hv.1 hw.1, forall_mem_normalFields_iff hw.1, alikeFields_iff]
      -- the other value is any field of `w`, so the induction goes along the fields of `v` alone
      refine and_congr_right fun _ ↦ forall₂_congr fun f hf ↦ exists_congr fun u ↦ ?_
      refine and_congr_right fun hu ↦ ?_
      exact normalValue_eq_iff hv.2 f hf (distinctFields_iff.mp hw.2 _ hu)
    | _ => simp [sortKeys, joined, Alike]

theorem normalItems_eq_iff {vs ws : List Json} (hvs : DistinctItems vs) (hws : DistinctItems ws) :
    joinedItems (sortKeysItems vs) = joinedItems (sortKeysItems ws) ↔ AlikeItems vs ws := by
  match vs with
  | [] => cases ws <;> simp [sortKeysItems, joinedItems, AlikeItems]
  | v :: vs =>
    cases ws with
    | nil => simp [sortKeysItems, joinedItems, AlikeItems]
    | cons w ws =>
      simp [sortKeysItems, joinedItems, AlikeItems, normal_eq_iff hvs.1 hws.1,
        normalItems_eq_iff hvs.2 hws.2]

theorem normalValue_eq_iff {fields : Fields} (hfields : DistinctFields fields) {w : Json} :
    ∀ f ∈ fields, w.Distinct → (f.2.sortKeys.joined = w.sortKeys.joined ↔ f.2.Alike w) := by
  match fields with
  | [] => exact nofun
  | (key, v) :: fields =>
    exact List.forall_mem_cons.mpr
      ⟨fun hw ↦ normal_eq_iff hfields.1 hw, normalValue_eq_iff hfields.2⟩

end

/-! ## Sorted values -/

mutual

theorem Distinct.sortKeys {v : Json} (h : v.Distinct) : v.sortKeys.Distinct := by
  match v with
  | .null | .bool _ | .int _ | .float _ | .string _ => trivial
  | .array vs => exact DistinctItems.sortKeys h
  | .object fields =>
    have hkeys := (perm_sortKeysFields fields).map Prod.fst
    rw [List.map_map] at hkeys
    exact ⟨hkeys.nodup_iff.mpr h.1, distinctFields_iff.mpr (DistinctFields.sortKeys h.2)⟩

theorem DistinctItems.sortKeys {vs : List Json} (h : DistinctItems vs) :
    DistinctItems (sortKeysItems vs) := by
  match vs with
  | [] => trivial
  | v :: vs => exact ⟨h.1.sortKeys, DistinctItems.sortKeys h.2⟩

theorem DistinctFields.sortKeys {fields : Fields} (h : DistinctFields fields) :
    ∀ f ∈ sortKeysFields fields, f.2.Distinct := by
  match fields with
  | [] => exact nofun
  | (key, v) :: fields =>
    intro f hf
    obtain rfl | hf := List.mem_cons.mp ((perm_insertSorted _ _ _).mem_iff.mp hf)
    · exact h.1.sortKeys
    · exact DistinctFields.sortKeys h.2 f hf

end

theorem unwritableFields?_eq_none_iff {encoded : Encoded} {n : Nat} {fields : Fields} :
    unwritableFields? encoded n fields = none ↔
      ∀ f ∈ fields, Utf8.encodeFault? f.1 = none ∧ f.2.unwritable? encoded n = none := by
  induction fields with
  | nil => simp [unwritableFields?]
  | cons f fields ih =>
    rw [unwritableFields?, Option.or_eq_none_iff, Option.or_eq_none_iff, Option.map_eq_none_iff, ih,
      List.forall_mem_cons, and_assoc]

mutual

theorem unwritable?_sortKeys {encoded : Encoded} {levels : Nat} {v : Json}
    (h : v.unwritable? encoded levels = none) : v.sortKeys.unwritable? encoded levels = none := by
  match levels, v with
  | 0, v => exact absurd h (by simp [unwritable?])
  | _ + 1, .null | _ + 1, .bool _ | _ + 1, .int _ | _ + 1, .float _ | _ + 1, .string _ => exact h
  | _ + 1, .array vs => exact unwritableItems?_sortKeys h
  | _ + 1, .object fields =>
    exact unwritableFields?_eq_none_iff.mpr (unwritableFields?_sortKeys h)

theorem unwritableItems?_sortKeys {encoded : Encoded} {levels : Nat} {vs : List Json}
    (h : unwritableItems? encoded levels vs = none) :
    unwritableItems? encoded levels (sortKeysItems vs) = none := by
  match vs with
  | [] => rfl
  | v :: vs =>
    obtain ⟨hv, hvs⟩ := Option.or_eq_none_iff.mp h
    exact Option.or_eq_none_iff.mpr ⟨unwritable?_sortKeys hv, unwritableItems?_sortKeys hvs⟩

theorem unwritableFields?_sortKeys {encoded : Encoded} {levels : Nat} {fields : Fields}
    (h : unwritableFields? encoded levels fields = none) :
    ∀ f ∈ sortKeysFields fields,
      Utf8.encodeFault? f.1 = none ∧ f.2.unwritable? encoded levels = none := by
  match fields with
  | [] => exact nofun
  | (key, v) :: fields =>
    obtain ⟨hkey, hrest⟩ := Option.or_eq_none_iff.mp h
    obtain ⟨hv, hfields⟩ := Option.or_eq_none_iff.mp hrest
    intro f hf
    obtain rfl | hf := List.mem_cons.mp ((perm_insertSorted _ _ _).mem_iff.mp hf)
    · exact ⟨Option.map_eq_none_iff.mp hkey, unwritable?_sortKeys hv⟩
    · exact unwritableFields?_sortKeys hfields f hf

end

theorem WellKeyed.sortKeys {v : Json} (h : v.WellKeyed) : v.sortKeys.WellKeyed :=
  ⟨h.distinct.sortKeys, h.encoded.imp fun _ ↦ unwritable?_sortKeys⟩

/-- **The canonical text stands for a value up to the order of keys.** -/
theorem canonical_eq_iff {v w : Json} (hv : v.WellKeyed) (hw : w.WellKeyed) :
    v.canonical = w.canonical ↔ v.Alike w := by
  rw [canonical, canonical, asciiLine_eq_iff hv.sortKeys hw.sortKeys,
    normal_eq_iff hv.distinct hw.distinct]

end Json

end AgentFlow
