import AgentFlow.Proofs.Json.Finite
import AgentFlow.Proofs.Text.Utf8

/-!
# What can be written

Whether a value can be written depends on two things: how many levels it has, and which of its texts
are encoded. Where a value could be written once, only its height can keep it from being written
elsewhere (`Json.unwritable?_of_height_le`). A record or list can be written exactly if one level
further down its parts can, since names of fields are always encoded. What a free value is written
as has the same faults as the value (`Json.unwritable?_finite`).
-/

namespace AgentFlow

namespace Json

variable {encoded : Encoded}

/-! ## Levels -/

mutual

theorem unwritable?_of_height_le {m n : Nat} {v : Json} (h : v.unwritable? encoded m = none)
    (hn : v.height ≤ n) : v.unwritable? encoded n = none := by
  match m, n, v with
  | 0, _, v => simp [unwritable?] at h
  | _ + 1, 0, v => cases v <;> simp [height] at hn
  | m + 1, n + 1, .array items =>
    exact unwritableItems?_of_heightItems_le (m := m) h (Nat.le_of_succ_le_succ hn)
  | m + 1, n + 1, .object fields =>
    exact unwritableFields?_of_heightFields_le (m := m) h (Nat.le_of_succ_le_succ hn)
  | m + 1, n + 1, .string t => exact h
  | m + 1, n + 1, .null | m + 1, n + 1, .bool _ | m + 1, n + 1, .int _ | m + 1, n + 1, .float _ =>
    rfl

theorem unwritableItems?_of_heightItems_le {m n : Nat} {vs : List Json}
    (h : unwritableItems? encoded m vs = none) (hn : heightItems vs ≤ n) :
    unwritableItems? encoded n vs = none := by
  match vs with
  | [] => rfl
  | v :: vs =>
    obtain ⟨hv, hvs⟩ := Option.or_eq_none_iff.mp h
    obtain ⟨hvn, hvsn⟩ := Nat.max_le.mp hn
    exact Option.or_eq_none_iff.mpr ⟨unwritable?_of_height_le hv hvn,
      unwritableItems?_of_heightItems_le hvs hvsn⟩

theorem unwritableFields?_of_heightFields_le {m n : Nat} {fields : Fields}
    (h : unwritableFields? encoded m fields = none) (hn : heightFields fields ≤ n) :
    unwritableFields? encoded n fields = none := by
  match fields with
  | [] => rfl
  | (k, v) :: fields =>
    obtain ⟨hk, hrest⟩ := Option.or_eq_none_iff.mp h
    obtain ⟨hv, hfields⟩ := Option.or_eq_none_iff.mp hrest
    obtain ⟨hvn, hfieldsn⟩ := Nat.max_le.mp hn
    exact Option.or_eq_none_iff.mpr ⟨hk, Option.or_eq_none_iff.mpr
      ⟨unwritable?_of_height_le hv hvn, unwritableFields?_of_heightFields_le hfields hfieldsn⟩⟩

end

theorem unencodable?_of_unwritable? {n : Nat} {v : Json} (h : v.unwritable? .texts n = none) :
    v.unencodable? = none :=
  unwritable?_of_height_le h le_rfl

/-! ## Parts -/

section Parts

variable {n : Nat}

theorem unwritableItems?_eq_none_iff {vs : List Json} :
    unwritableItems? encoded n vs = none ↔ ∀ v ∈ vs, v.unwritable? encoded n = none := by
  induction vs with
  | nil => simp [unwritableItems?]
  | cons v vs ih => rw [unwritableItems?, Option.or_eq_none_iff, ih, List.forall_mem_cons]

theorem unwritable?_ofList_eq_none_iff {α : Type} {f : α → Json} {l : List α} :
    (ofList f l).unwritable? encoded (n + 1) = none ↔
      ∀ a ∈ l, (f a).unwritable? encoded n = none := by
  rw [ofList, unwritable?, unwritableItems?_eq_none_iff, List.forall_mem_map]

theorem unwritable?_record_eq_none_iff {s : Spelling} {fields : List (Key × Json)} :
    (record s fields).unwritable? encoded (n + 1) = none ↔
      ∀ f ∈ fields, f.2.unwritable? encoded n = none := by
  rw [record, unwritable?]
  induction fields with
  | nil => simp [unwritableFields?]
  | cons f fields ih =>
    rw [List.map_cons, unwritableFields?, Utf8.encodeFault?_ofString, Option.map_none,
      Option.none_or, Option.or_eq_none_iff, ih, List.forall_mem_cons]

theorem height_record_le_iff {s : Spelling} {fields : List (Key × Json)} :
    (record s fields).height ≤ n + 1 ↔ ∀ f ∈ fields, f.2.height ≤ n := by
  rw [record, height, Nat.succ_le_succ_iff, heightFields_le_iff, List.forall_mem_map]

theorem height_ofList_le_iff {α : Type} {f : α → Json} {l : List α} :
    (ofList f l).height ≤ n + 1 ↔ ∀ a ∈ l, (f a).height ≤ n := by
  rw [ofList, height, Nat.succ_le_succ_iff, heightItems_le_iff, List.forall_mem_map]

end Parts

/-! ## Finite values -/

mutual

theorem unwritable?_finite (encoded : Encoded) (levels : Nat) (v : Json) :
    v.finite.unwritable? encoded levels = v.unwritable? encoded levels := by
  cases levels with
  | zero => simp [unwritable?]
  | succ levels =>
    cases v with
    | null | bool _ | int _ | string _ => rfl
    | float x => rw [finite]; split <;> rfl
    | array items => exact unwritableItems?_finiteItems encoded levels items
    | object fields => exact unwritableFields?_finiteFields encoded levels fields

theorem unwritableItems?_finiteItems (encoded : Encoded) (levels : Nat) (vs : List Json) :
    unwritableItems? encoded levels (finiteItems vs) = unwritableItems? encoded levels vs := by
  cases vs with
  | nil => rfl
  | cons v vs =>
    rw [finiteItems, unwritableItems?, unwritableItems?, unwritable?_finite,
      unwritableItems?_finiteItems]

theorem unwritableFields?_finiteFields (encoded : Encoded) (levels : Nat) (fields : Fields) :
    unwritableFields? encoded levels (finiteFields fields)
      = unwritableFields? encoded levels fields := by
  cases fields with
  | nil => rfl
  | cons f fields =>
    rw [finiteFields, unwritableFields?, unwritableFields?, unwritable?_finite,
      unwritableFields?_finiteFields]

end

theorem writeFault?_finite (v : Json) : v.finite.writeFault? = v.writeFault? := by
  rw [writeFault?, freeFault?, unwritable?_finite]
  rfl

end Json

end AgentFlow
