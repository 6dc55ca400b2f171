import AgentFlow.Payload.Key
import AgentFlow.Payload.Writing
import AgentFlow.Proofs.Json.RoundTrip

/-!
# Free values as they are written

Where a free value is written, null stands for every number that is infinite or NaN
(`Json.finite`). That changes neither keys nor levels, and what was written once is not changed
again (`Json.finite_finite`). A free mapping is written with readable keys as well; what it comes
back as is `Fields.settled`, which is the mapping itself exactly when its values are finite and no
half of a surrogate pair stands alone in a key of its own (`Fields.settled_eq_self_iff`).
-/

namespace AgentFlow

namespace Json

/-! ## Finite values -/

mutual

theorem finite_finite (v : Json) : v.finite.finite = v.finite := by
  cases v with
  | null | bool _ | int _ | string _ => rfl
  | float x =>
    rw [finite]
    split
    next h => rw [finite, if_pos h]
    next => rfl
  | array items => exact congrArg array (finiteItems_finiteItems items)
  | object fields => exact congrArg object (finiteFields_finiteFields fields)

theorem finiteItems_finiteItems (vs : List Json) :
    finiteItems (finiteItems vs) = finiteItems vs := by
  cases vs with
  | nil => rfl
  | cons v vs => exact congrArg₂ List.cons (finite_finite v) (finiteItems_finiteItems vs)

theorem finiteFields_finiteFields (fields : Fields) :
    finiteFields (finiteFields fields) = finiteFields fields := by
  cases fields with
  | nil => rfl
  | cons f fields =>
    rw [finiteFields, finiteFields, finite_finite, finiteFields_finiteFields]

end

theorem finiteItems_eq_map (vs : List Json) : finiteItems vs = vs.map finite := by
  induction vs with
  | nil => rfl
  | cons v vs ih => rw [finiteItems, ih, List.map_cons]

theorem finiteFields_eq_map (fields : Fields) :
    finiteFields fields = fields.map fun f ↦ (f.1, f.2.finite) := by
  induction fields with
  | nil => rfl
  | cons f fields ih => rw [finiteFields, ih, List.map_cons]

mutual

theorem height_finite (v : Json) : v.finite.height = v.height := by
  cases v with
  | null | bool _ | int _ | string _ => rfl
  | float x => rw [finite]; split <;> rfl
  | array items => exact congrArg (· + 1) (heightItems_finiteItems items)
  | object fields => exact congrArg (· + 1) (heightFields_finiteFields fields)

theorem heightItems_finiteItems (vs : List Json) :
    heightItems (finiteItems vs) = heightItems vs := by
  cases vs with
  | nil => rfl
  | cons v vs => rw [finiteItems, heightItems, heightItems, height_finite, heightItems_finiteItems]

theorem heightFields_finiteFields (fields : Fields) :
    heightFields (finiteFields fields) = heightFields fields := by
  cases fields with
  | nil => rfl
  | cons f fields =>
    rw [finiteFields, heightFields, heightFields, height_finite, heightFields_finiteFields]

end

mutual

theorem Distinct.finite {v : Json} (h : v.Distinct) : v.finite.Distinct := by
  cases v with
  | null | bool _ | int _ | string _ => exact True.intro
  | float x => rw [Json.finite]; split <;> exact True.intro
  | array items => exact DistinctItems.finite h
  | object fields =>
    refine ⟨?_, DistinctFields.finite h.2⟩
    rw [finiteFields_eq_map, List.map_map]
    exact h.1

theorem DistinctItems.finite {vs : List Json} (h : DistinctItems vs) :
    DistinctItems (finiteItems vs) := by
  cases vs with
  | nil => exact True.intro
  | cons v vs => exact ⟨h.1.finite, DistinctItems.finite h.2⟩

theorem DistinctFields.finite {fields : Fields} (h : DistinctFields fields) :
    DistinctFields (finiteFields fields) := by
  cases fields with
  | nil => exact True.intro
  | cons f fields => exact ⟨h.1.finite, DistinctFields.finite h.2⟩

end

/-! ## Records and lists -/

section Records

variable {α : Type} {s : Spelling} {fields : List (Key × Json)}

theorem distinctFields_iff {fields : Fields} :
    DistinctFields fields ↔ ∀ f ∈ fields, f.2.Distinct := by
  induction fields with
  | nil => simp [DistinctFields]
  | cons f fields ih => rw [DistinctFields, ih, List.forall_mem_cons]

theorem distinctItems_iff {vs : List Json} : DistinctItems vs ↔ ∀ v ∈ vs, v.Distinct := by
  induction vs with
  | nil => simp [DistinctItems]
  | cons v vs ih => rw [DistinctItems, ih, List.forall_mem_cons]

theorem heightFields_le_iff {fields : Fields} {n : Nat} :
    heightFields fields ≤ n ↔ ∀ f ∈ fields, f.2.height ≤ n := by
  induction fields with
  | nil => simp [heightFields]
  | cons f fields ih => rw [heightFields, Nat.max_le, ih, List.forall_mem_cons]

theorem heightItems_le_iff {vs : List Json} {n : Nat} :
    heightItems vs ≤ n ↔ ∀ v ∈ vs, v.height ≤ n := by
  induction vs with
  | nil => simp [heightItems]
  | cons v vs ih => rw [heightItems, Nat.max_le, ih, List.forall_mem_cons]

theorem finite_record :
    (record s fields).finite = record s (fields.map fun f ↦ (f.1, f.2.finite)) := by
  rw [record, finite, finiteFields_eq_map, record, List.map_map, List.map_map]
  rfl

theorem finite_ofList (f : α → Json) (l : List α) :
    (ofList f l).finite = ofList (fun a ↦ (f a).finite) l := by
  rw [ofList, finite, finiteItems_eq_map, List.map_map]
  rfl

theorem finite_ofOption (f : α → Json) (o : Option α) :
    (ofOption f o).finite = ofOption (fun a ↦ (f a).finite) o := by
  cases o <;> rfl

theorem ofList_map {β : Type} (f : β → Json) (g : α → β) (l : List α) :
    ofList f (l.map g) = ofList (fun a ↦ f (g a)) l := by
  rw [ofList, List.map_map]
  rfl

theorem ofOption_map {β : Type} (f : β → Json) (g : α → β) (o : Option α) :
    ofOption f (o.map g) = ofOption (fun a ↦ f (g a)) o := by
  cases o <;> rfl

end Records

/-- Whether no infinity and no NaN stands in a value, so that it is written as it is. -/
def IsPlain (v : Json) : Prop := v.finite = v

end Json

/-! ## Free mappings -/

namespace Fields

/-- What a free mapping comes back as once it was written. -/
def settled (fields : Fields) : Fields :=
  ofPairs (fields.map fun f ↦ (Text.ofChars f.1.readable, f.2.finite))

theorem write_eq (fields : Fields) : fields.write = .object fields.settled := rfl

theorem mem_put {fields : Fields} {key : Text} {v : Json} {f : Text × Json}
    (h : f ∈ put fields key v) : f = (key, v) ∨ f ∈ fields := by
  induction fields with
  | nil => exact .inl (List.mem_singleton.mp h)
  | cons g fields ih =>
    rw [put] at h
    split at h
    next =>
      obtain h | h := List.mem_cons.mp h
      · exact .inl h
      · exact .inr (List.mem_cons_of_mem g h)
    next =>
      obtain h | h := List.mem_cons.mp h
      · exact .inr (h ▸ List.mem_cons_self)
      · exact (ih h).imp_right (List.mem_cons_of_mem g)

theorem nodup_put {fields : Fields} (h : (fields.map Prod.fst).Nodup) (key : Text) (v : Json) :
    ((put fields key v).map Prod.fst).Nodup := by
  induction fields with
  | nil => exact List.nodup_cons.mpr ⟨List.not_mem_nil, List.nodup_nil⟩
  | cons f fields ih =>
    rw [List.map_cons, List.nodup_cons] at h
    rw [put]
    split
    next heq => exact List.nodup_cons.mpr ⟨heq ▸ h.1, h.2⟩
    next hne =>
      refine List.nodup_cons.mpr ⟨fun hmem ↦ ?_, ih h.2⟩
      obtain ⟨g, hg, hgf⟩ := List.mem_map.mp hmem
      obtain rfl | hg := mem_put hg
      · exact hne hgf.symm
      · exact h.1 (hgf ▸ List.mem_map_of_mem hg)

theorem nodup_ofPairs (pairs : List (Text × Json)) : ((ofPairs pairs).map Prod.fst).Nodup := by
  have hfold : ∀ done : Fields, (done.map Prod.fst).Nodup →
      ((pairs.foldl (fun fields p ↦ put fields p.1 p.2) done).map Prod.fst).Nodup := by
    induction pairs with
    | nil => exact fun _ h ↦ h
    | cons p pairs ih => exact fun done h ↦ ih _ (nodup_put h p.1 p.2)
  exact hfold [] List.nodup_nil

theorem mem_of_mem_ofPairs {pairs : List (Text × Json)} {f : Text × Json}
    (h : f ∈ ofPairs pairs) : f ∈ pairs := by
  have hfold : ∀ done : Fields, f ∈ pairs.foldl (fun fields p ↦ put fields p.1 p.2) done →
      f ∈ pairs ∨ f ∈ done := by
    clear h
    induction pairs with
    | nil => exact fun _ h ↦ .inr h
    | cons p pairs ih =>
      intro done h
      obtain h | h := ih _ h
      · exact .inl (List.mem_cons_of_mem p h)
      · obtain rfl | h := mem_put h
        · exact .inl List.mem_cons_self
        · exact .inr h
  simpa using hfold [] h

theorem nodup_settled (fields : Fields) : (fields.settled.map Prod.fst).Nodup :=
  nodup_ofPairs _

theorem mem_settled {fields : Fields} {f : Text × Json} (h : f ∈ fields.settled) :
    ∃ g ∈ fields, f = (Text.ofChars g.1.readable, g.2.finite) := by
  obtain ⟨g, hg, hgf⟩ := List.mem_map.mp (mem_of_mem_ofPairs h)
  exact ⟨g, hg, hgf.symm⟩

theorem ofChars_readable_eq_self_iff {t : Text} :
    Text.ofChars t.readable = t ↔ ∀ c ∈ t, c.isHalf = false := by
  constructor
  · intro h c hc
    rw [← h] at hc
    obtain ⟨d, -, rfl⟩ := List.mem_map.mp hc
    rfl
  · intro h
    induction t with
    | nil => rfl
    | cons c t ih =>
      have ht := ih fun d hd ↦ h d (List.mem_cons_of_mem c hd)
      cases c with
      | char c => exact congrArg (CodePoint.char c :: ·) ht
      | half place => exact absurd (h _ List.mem_cons_self) (by simp [CodePoint.isHalf])

/-- Whether a mapping is written as it is: no key comes twice, no half of a surrogate pair stands
alone in a key of its own, and no value holds an infinity or NaN. -/
structure IsPlain (fields : Fields) : Prop where
  keys : (fields.map Prod.fst).Nodup
  readable : ∀ f ∈ fields, ∀ c ∈ f.1, c.isHalf = false
  finite : ∀ f ∈ fields, f.2.finite = f.2

theorem settled_eq_self_iff {fields : Fields} : fields.settled = fields ↔ fields.IsPlain := by
  constructor
  · intro h
    refine ⟨h ▸ nodup_settled fields, fun f hf ↦ ?_, fun f hf ↦ ?_⟩
    · rw [← h] at hf
      obtain ⟨g, -, rfl⟩ := mem_settled hf
      rw [← ofChars_readable_eq_self_iff, Text.readable_ofChars]
    · rw [← h] at hf
      obtain ⟨g, -, rfl⟩ := mem_settled hf
      exact g.2.finite_finite
  · intro h
    have hmap : (fields.map fun f ↦ (Text.ofChars f.1.readable, f.2.finite)) = fields.map id :=
      List.map_congr_left fun f hf ↦
        Prod.ext (ofChars_readable_eq_self_iff.mpr (h.readable f hf)) (h.finite f hf)
    rw [List.map_id] at hmap
    rw [settled, hmap, ofPairs_eq_self h.keys]

theorem settled_settled (fields : Fields) : fields.settled.settled = fields.settled := by
  rw [settled_eq_self_iff]
  refine ⟨nodup_settled fields, fun f hf ↦ ?_, fun f hf ↦ ?_⟩
  · obtain ⟨g, -, rfl⟩ := mem_settled hf
    rw [← ofChars_readable_eq_self_iff, Text.readable_ofChars]
  · obtain ⟨g, -, rfl⟩ := mem_settled hf
    exact g.2.finite_finite

theorem write_settled (fields : Fields) : fields.settled.write = fields.write := by
  rw [write_eq, settled_settled, write_eq]

theorem finite_write (m : Fields) : m.write.finite = m.write := by
  have hfinite : ∀ f ∈ m.settled, (f.1, f.2.finite) = id f := fun f hf ↦
    Prod.ext rfl ((settled_eq_self_iff.mp m.settled_settled).finite f hf)
  rw [write_eq, Json.finite, Json.finiteFields_eq_map, List.map_congr_left hfinite, List.map_id]

end Fields

end AgentFlow
