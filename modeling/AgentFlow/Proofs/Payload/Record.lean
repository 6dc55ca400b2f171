import AgentFlow.Payload.Scalar
import AgentFlow.Proofs.Json.Finite
import Mathlib.Data.List.Pairwise

/-!
# Reading records that were written

A record is written in one spelling and each of its fields is looked for in both. No two fields of a
record share a name in any spelling (`Key.Apart`), so each is found with its own value, whichever
spelling was written (`Fields.find?_spelled`). What a record comes back as is therefore put together
from what its fields come back as: `Record.Yields` says what a reader takes from an object, and has
one rule for each way to build a reader.
-/

namespace AgentFlow

/-! ## Names of fields -/

/-- Whether two fields share no name in any spelling. -/
def Key.Apart (k l : Key) : Prop :=
  k.wire ≠ l.wire ∧ k.wire ≠ l.plain ∧ k.plain ≠ l.wire ∧ k.plain ≠ l.plain
  deriving Decidable

instance : DecidableRel Key.Apart := fun k l ↦ inferInstanceAs (Decidable (Key.Apart k l))

theorem Key.Apart.symm {k l : Key} (h : k.Apart l) : l.Apart k :=
  ⟨h.1.symm, h.2.2.1.symm, h.2.1.symm, h.2.2.2.symm⟩

theorem Key.Apart.spell_ne {k l : Key} (h : k.Apart l) (s t : Spelling) :
    k.spell s ≠ l.spell t := by
  cases s with
  | wire => cases t with
    | wire => exact h.1
    | plain => exact h.2.1
  | plain => cases t with
    | wire => exact h.2.2.1
    | plain => exact h.2.2.2

/-- Whether no two fields of a record share a name. -/
def AllApart {β : Type} (written : List (Key × β)) : Prop :=
  (written.map Prod.fst).Pairwise Key.Apart
  deriving Decidable

namespace Fields

variable {s : Spelling} {k : Key} {written : List (Key × Json)}

/-- The fields of a record in a spelling. -/
def spelled (s : Spelling) (written : List (Key × Json)) : Fields :=
  written.map fun f ↦ (Text.ofString (f.1.spell s), f.2)

theorem get?_spelled_of_apart (h : ∀ f ∈ written, f.1.Apart k) (t : Spelling) :
    (spelled s written).get? (k.spell t) = none := by
  rw [get?, spelled, List.lookup_eq_none_iff]
  intro f hf
  obtain ⟨g, hg, rfl⟩ := List.mem_map.mp hf
  have hne := (h g hg).spell_ne s t
  simp [Ne.symm hne]

theorem find?_spelled_of_apart (h : ∀ f ∈ written, f.1.Apart k) :
    (spelled s written).find? k = none := by
  have hwire : (spelled s written).get? k.wire = none := get?_spelled_of_apart h .wire
  have hplain : (spelled s written).get? k.plain = none := get?_spelled_of_apart h .plain
  rw [find?, hwire, hplain]
  rfl

theorem get?_cons_self (fields : Fields) (key : Text) (v : Json) :
    get? ((key, v) :: fields) key = some v := by
  rw [get?, List.lookup_cons_self]

theorem get?_cons_of_ne {key l : Text} (h : key ≠ l) (fields : Fields) (v : Json) :
    get? ((l, v) :: fields) key = get? fields key := by
  rw [get?, List.lookup_cons, beq_eq_false_iff_ne.mpr h]
  rfl

/-- A field is found with its own value in every spelling. -/
theorem find?_spelled (hkeys : AllApart written) {v : Json} (hv : (k, v) ∈ written) :
    ((spelled s written).find? k).map Prod.snd = some v := by
  induction written with
  | nil => exact absurd hv List.not_mem_nil
  | cons f written ih =>
    obtain ⟨hf, hwritten⟩ := List.pairwise_cons.mp hkeys
    obtain rfl | hv := List.mem_cons.mp hv
    · have hrest : ∀ g ∈ written, g.1.Apart k := fun g hg ↦ (hf g.1 (List.mem_map_of_mem hg)).symm
      have hwire : (spelled s written).get? k.wire = none := get?_spelled_of_apart hrest .wire
      rw [find?, spelled, List.map_cons, ← spelled]
      by_cases hspell : Text.ofString k.wire = k.spell s
      · rw [hspell, get?_cons_self]
        rfl
      · cases s with
        | wire => exact absurd rfl hspell
        | plain =>
          rw [get?_cons_of_ne hspell, hwire, Key.spell, get?_cons_self]
          rfl
    · have hne : ∀ t, Text.ofString (k.spell t) ≠ f.1.spell s := fun t h ↦
        (hf k (List.mem_map_of_mem hv)).symm.spell_ne t s (Text.ofString_inj.mp h)
      have hfind : find? (spelled s (f :: written)) k = find? (spelled s written) k := by
        have hget : ∀ t, get? (spelled s (f :: written)) (k.spell t)
            = get? (spelled s written) (k.spell t) := fun t ↦ get?_cons_of_ne (hne t) _ f.2
        have hwire : get? (spelled s (f :: written)) k.wire = get? (spelled s written) k.wire :=
          hget .wire
        have hplain : get? (spelled s (f :: written)) k.plain = get? (spelled s written) k.plain :=
          hget .plain
        rw [find?, find?, hwire, hplain]
      rw [hfind]
      exact ih hwritten hv

theorem nodup_spelled (hkeys : AllApart written) : ((spelled s written).map Prod.fst).Nodup := by
  rw [spelled, List.map_map]
  apply List.pairwise_map.mpr
  refine (List.pairwise_map.mp hkeys).imp fun h ↦ ?_
  exact fun heq ↦ h.spell_ne s s (Text.ofString_inj.mp heq)

/-- A field with one spelling is found under that. -/
theorem get?_spelled_same (hkeys : AllApart written) (hk : k.plain = k.wire) {v : Json}
    (hv : (k, v) ∈ written) : (spelled s written).get? k.wire = some v := by
  have hfind := find?_spelled (s := s) hkeys hv
  rw [find?, hk] at hfind
  cases hget : (spelled s written).get? k.wire with
  | none =>
    rw [hget] at hfind
    exact absurd hfind nofun
  | some w =>
    rw [hget] at hfind
    exact hfind

end Fields

/-! ## Levels of records -/

namespace Json

/-- Whether a value repeats no key and has at most so many levels. -/
def Within (n : Nat) (v : Json) : Prop := v.Distinct ∧ v.height ≤ n

variable {α : Type} {n : Nat} {v : Json}

theorem Within.mono {m : Nat} (h : v.Within n) (hm : n ≤ m) : v.Within m :=
  ⟨h.1, h.2.trans hm⟩

theorem Within.pos (h : v.Within n) : 0 < n := by
  refine lt_of_lt_of_le ?_ h.2
  cases v <;> exact Nat.succ_pos _

theorem Within.finite (h : v.Within n) : v.finite.Within n :=
  ⟨h.1.finite, (height_finite v).trans_le h.2⟩

theorem within_record {s : Spelling} {written : List (Key × Json)} (hkeys : AllApart written)
    (h : ∀ f ∈ written, f.2.Within n) : (record s written).Within (n + 1) := by
  refine ⟨⟨Fields.nodup_spelled hkeys, distinctFields_iff.mpr ?_⟩, Nat.succ_le_succ (heightFields_le_iff.mpr ?_)⟩
  · exact List.forall_mem_map.mpr fun f hf ↦ (h f hf).1
  · exact List.forall_mem_map.mpr fun f hf ↦ (h f hf).2

theorem within_ofList {f : α → Json} {l : List α} (h : ∀ a ∈ l, (f a).Within n) :
    (ofList f l).Within (n + 1) := by
  refine ⟨distinctItems_iff.mpr ?_, Nat.succ_le_succ (heightItems_le_iff.mpr ?_)⟩
  · exact List.forall_mem_map.mpr fun a ha ↦ (h a ha).1
  · exact List.forall_mem_map.mpr fun a ha ↦ (h a ha).2

theorem within_ofOption {f : α → Json} {o : Option α} (hn : 0 < n)
    (h : ∀ a ∈ o, (f a).Within n) : (ofOption f o).Within n := by
  cases o with
  | none => exact ⟨True.intro, hn⟩
  | some a => exact h a rfl

theorem within_object_settled {fields : Fields} (h : ∀ f ∈ fields, f.2.Within n) :
    fields.write.Within (n + 1) := by
  have hvalues : ∀ f ∈ fields.settled, f.2.Within n := by
    intro f hf
    obtain ⟨g, hg, rfl⟩ := Fields.mem_settled hf
    exact (h g hg).finite
  refine ⟨⟨Fields.nodup_settled fields, distinctFields_iff.mpr ?_⟩,
    Nat.succ_le_succ (heightFields_le_iff.mpr ?_)⟩
  · exact fun f hf ↦ (hvalues f hf).1
  · exact fun f hf ↦ (hvalues f hf).2

end Json

/-! ## Fields that may be left out -/

/-- The fields that are there. -/
def presentFields (entries : List (Key × Option Json)) : List (Key × Json) :=
  entries.filterMap fun f ↦ f.2.map fun v ↦ (f.1, v)

section Present

variable {s : Spelling} {k : Key} {entries : List (Key × Option Json)}

theorem keys_presentFields_sublist (entries : List (Key × Option Json)) :
    ((presentFields entries).map Prod.fst).Sublist (entries.map Prod.fst) := by
  induction entries with
  | nil => exact List.Sublist.slnil
  | cons f entries ih =>
    obtain ⟨k, _ | v⟩ := f
    · exact ih.cons k
    · exact ih.cons_cons k

theorem AllApart.presentFields (h : AllApart entries) : AllApart (presentFields entries) :=
  h.sublist (keys_presentFields_sublist entries)

theorem mem_presentFields {v : Json} :
    (k, v) ∈ presentFields entries ↔ (k, some v) ∈ entries := by
  rw [AgentFlow.presentFields, List.mem_filterMap]
  constructor
  · rintro ⟨⟨l, _ | w⟩, hmem, heq⟩
    · exact absurd heq (by simp)
    · obtain ⟨rfl, rfl⟩ : l = k ∧ w = v := by simpa using heq
      exact hmem
  · intro h
    exact ⟨(k, some v), h, rfl⟩

/-- A field that is left out is not found, since no other field has a name of it. -/
theorem AllApart.find?_of_none (hkeys : AllApart entries) (hk : (k, none) ∈ entries) :
    (Fields.spelled s (AgentFlow.presentFields entries)).find? k = none := by
  apply Fields.find?_spelled_of_apart
  intro f hf
  have hsymm : Std.Symm fun f g : Key × Option Json ↦ f.1.Apart g.1 := ⟨fun _ _ h ↦ h.symm⟩
  have hmem : (f.1, some f.2) ∈ entries := mem_presentFields.mp hf
  exact (List.pairwise_map.mp hkeys).forall hmem hk (by simp)

end Present

/-! ## Accepted values -/

namespace Reading

variable {α β γ : Type}

theorem value?_map (f : α → β) (r : Reading α) : (map f r).value? = r.value?.map f := by
  cases r <;> rfl

theorem value?_under (place : Place) (r : Reading α) : (under place r).value? = r.value? := by
  cases r <;> rfl

theorem value?_both {f : α → β → γ} {r : Reading α} {q : Reading β} {a : α} {b : β}
    (hr : r.value? = some a) (hq : q.value? = some b) : (both f r q).value? = some (f a b) := by
  match r, q with
  | .ok _, .ok _ =>
    obtain rfl := Option.some.inj hr
    obtain rfl := Option.some.inj hq
    rfl

theorem result_of_value? {r : Reading α} {a : α} (h : r.value? = some a) : r.result = .ok a := by
  match r with
  | .ok _ =>
    obtain rfl := Option.some.inj h
    rfl

theorem value?_items {read : Json → Reading β} {f : α → Json} {g : α → β} {l : List α}
    (h : ∀ a ∈ l, (read (f a)).value? = some (g a)) (i : Nat) :
    (items read i (l.map f)).value? = some (l.map g) := by
  induction l generalizing i with
  | nil => rfl
  | cons a l ih =>
    have ha := h a List.mem_cons_self
    have hl := ih (fun b hb ↦ h b (List.mem_cons_of_mem a hb)) (i + 1)
    exact value?_both ((value?_under _ _).trans ha) hl

theorem value?_list {read : Json → Reading β} {f : α → Json} {g : α → β} {l : List α}
    (h : ∀ a ∈ l, (read (f a)).value? = some (g a)) :
    (list read (.ofList f l)).value? = some (l.map g) := value?_items h 0

theorem each_eq_ok {read : Json → Reading β} {f : α → Json} {g : α → β} {l : List α}
    (h : ∀ a ∈ l, (read (f a)).value? = some (g a)) :
    each read (l.map f) = .ok (l.map g) := by
  rw [each]
  induction l with
  | nil => rfl
  | cons a l ih =>
    have ha := result_of_value? (h a List.mem_cons_self)
    rw [List.map_cons, List.mapM_cons, ha, ih fun b hb ↦ h b (List.mem_cons_of_mem a hb)]
    rfl

theorem value?_nullable {read : Json → Reading β} {f : α → Json} {g : α → β} {o : Option α}
    (hnull : ∀ a, f a ≠ .null) (h : ∀ a ∈ o, (read (f a)).value? = some (g a)) :
    (nullable read (.ofOption f o)).value? = some (o.map g) := by
  cases o with
  | none => rfl
  | some a =>
    rw [Json.ofOption, nullable, value?_map, h a rfl]
    · rfl
    · exact hnull a

theorem value?_list_self {read : Json → Reading α} {f : α → Json}
    (h : ∀ a, (read (f a)).value? = some a) (l : List α) :
    (list read (.ofList f l)).value? = some l :=
  (value?_list fun a _ ↦ h a).trans (congrArg some l.map_id)

theorem value?_nullable_self {read : Json → Reading α} {f : α → Json} (hnull : ∀ a, f a ≠ .null)
    (h : ∀ a, (read (f a)).value? = some a) (o : Option α) :
    (nullable read (.ofOption f o)).value? = some o :=
  (value?_nullable hnull fun a _ ↦ h a).trans (congrArg some Option.map_id')

end Reading

/-! ## Readers of records -/

namespace Record

variable {α β : Type} {fields : Fields}

/-- What a reader takes from the fields of an object. -/
def Yields (r : Record α) (fields : Fields) (a : α) : Prop := (r.run fields).value? = some a

theorem Yields.read {r : Record α} {a : α} (h : r.Yields fields a) :
    (r.read (.object fields)).value? = some a := h

theorem Yields.seq {f : Record (α → β)} {x : Record α} {g : α → β} {a : α}
    (hf : f.Yields fields g) (hx : x.Yields fields a) : (f <*> x).Yields fields (g a) :=
  Reading.value?_both (f := fun (g : α → β) a ↦ g a) hf hx

theorem Yields.map {x : Record α} {a : α} (hx : x.Yields fields a) (g : α → β) :
    (g <$> x).Yields fields (g a) :=
  Yields.seq (f := pure g) rfl hx

theorem value?_found (k : Key) (name : String) (r : Reading α) :
    (found k name r).value? = r.value? := by
  cases r <;> rfl

section Fields

variable {k : Key} {read : Json → Reading α} {v : Json} {a d : α}

theorem Yields.required (hk : (fields.find? k).map Prod.snd = some v)
    (hv : (read v).value? = some a) : (Record.required k read).Yields fields a := by
  obtain ⟨⟨name, w⟩, hfind, rfl⟩ := Option.map_eq_some_iff.mp hk
  rw [Yields, Record.required]
  dsimp only
  rw [hfind]
  exact (value?_found k name (read w)).trans hv

theorem Yields.optional (hk : (fields.find? k).map Prod.snd = some v)
    (hv : (read v).value? = some a) : (Record.optional k d read).Yields fields a := by
  obtain ⟨⟨name, w⟩, hfind, rfl⟩ := Option.map_eq_some_iff.mp hk
  rw [Yields, Record.optional]
  dsimp only
  rw [hfind]
  exact (value?_found k name (read w)).trans hv

theorem Yields.default (hk : fields.find? k = none) :
    (Record.optional k d read).Yields fields d := by
  rw [Yields, Record.optional]
  dsimp only
  rw [hk]
  rfl

end Fields

end Record

/-! ## Records that were written -/

namespace AllApart

open Record

variable {α : Type} {s : Spelling} {k : Key} {read : Json → Reading α} {v : Json} {a d : α}

theorem mem_of_lookup {β : Type} {written : List (Key × β)} {b : β}
    (h : written.lookup k = some b) : (k, b) ∈ written := by
  obtain ⟨before, after, rfl, -⟩ := List.lookup_eq_some_iff.mp h
  exact List.mem_append_right before List.mem_cons_self

section Written

variable {written : List (Key × Json)}

theorem required (hkeys : AllApart written) (hk : written.lookup k = some v)
    (hv : (read v).value? = some a) : (Record.required k read).Yields (.spelled s written) a :=
  Yields.required (Fields.find?_spelled hkeys (mem_of_lookup hk)) hv

theorem optional (hkeys : AllApart written) (hk : written.lookup k = some v)
    (hv : (read v).value? = some a) :
    (Record.optional k d read).Yields (.spelled s written) a :=
  Yields.optional (Fields.find?_spelled hkeys (mem_of_lookup hk)) hv

end Written

section Present

variable {entries : List (Key × Option Json)} {o : Option Json}

theorem required_present (hkeys : AllApart entries) (hk : entries.lookup k = some (some v))
    (hv : (read v).value? = some a) :
    (Record.required k read).Yields (.spelled s (AgentFlow.presentFields entries)) a :=
  Yields.required (Fields.find?_spelled hkeys.presentFields
    (mem_presentFields.mpr (mem_of_lookup hk))) hv

theorem optional_present (hkeys : AllApart entries) (hk : entries.lookup k = some o)
    (hv : ∀ v ∈ o, (read v).value? = some a) (hnone : o = none → d = a) :
    (Record.optional k d read).Yields (.spelled s (AgentFlow.presentFields entries)) a := by
  cases o with
  | none =>
    rw [← hnone rfl]
    exact Yields.default (hkeys.find?_of_none (mem_of_lookup hk))
  | some v =>
    exact Yields.optional (Fields.find?_spelled hkeys.presentFields
      (mem_presentFields.mpr (mem_of_lookup hk))) (hv v rfl)

end Present

end AllApart

theorem Record.value?_read_record {α : Type} {s : Spelling} {r : Record α} {a : α}
    {written : List (Key × Json)} (hkeys : AllApart written)
    (h : AllApart written → r.Yields (.spelled s written) a) :
    (r.read (.record s written)).value? = some a := h hkeys

end AgentFlow
