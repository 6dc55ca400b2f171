import AgentFlow.Proofs.Json.Canonical
import AgentFlow.Proofs.Payload.Levels

/-!
# Keys of records that were written

The names of the fields of a record are all different and can be encoded. So a record repeats no
key and all its keys can be encoded if that holds of its free values (`Json.WellKeyed`). A free
value that can be written has keys that can be encoded.
-/

namespace AgentFlow

/-! ## Records -/

namespace Json

variable {α : Type} {v : Json} {s : Spelling}

theorem wellKeyed_null : null.WellKeyed := ⟨trivial, 1, rfl⟩

theorem wellKeyed_bool (b : Bool) : (bool b).WellKeyed := ⟨trivial, 1, rfl⟩

theorem wellKeyed_int (n : Int) : (int n).WellKeyed := ⟨trivial, 1, rfl⟩

theorem wellKeyed_float (x : Binary64) : (float x).WellKeyed := ⟨trivial, 1, rfl⟩

theorem wellKeyed_string (t : Text) : (string t).WellKeyed := ⟨trivial, 1, rfl⟩

theorem WellKeyed.finite (h : v.WellKeyed) : v.finite.WellKeyed :=
  ⟨h.distinct.finite, h.encoded.imp fun n hn ↦ (unwritable?_finite .keys n v).trans hn⟩

/-- A value of known keys can be written wherever there are levels enough. -/
theorem WellKeyed.unwritable? (h : v.WellKeyed) {n : Nat} (hn : v.height ≤ n) :
    v.unwritable? .keys n = none :=
  h.encoded.elim fun _ hm ↦ unwritable?_of_height_le hm hn

theorem wellKeyed_record {written : List (Key × Json)} (hkeys : AllApart written)
    (h : ∀ f ∈ written, f.2.WellKeyed) : (record s written).WellKeyed := by
  have hheight : ∀ f ∈ written, f.2.height ≤ (record s written).height :=
    height_record_le_iff.mp (Nat.le_succ _)
  refine ⟨(within_record hkeys fun f hf ↦ ⟨(h f hf).distinct, hheight f hf⟩).1,
    (record s written).height + 1, ?_⟩
  exact unwritable?_record_eq_none_iff.mpr fun f hf ↦ (h f hf).unwritable? (hheight f hf)

theorem wellKeyed_single {k : Key} (h : v.WellKeyed) : (record s [(k, v)]).WellKeyed :=
  wellKeyed_record (List.pairwise_singleton _ _) (List.forall_mem_singleton.mpr h)

theorem wellKeyed_ofList {f : α → Json} {l : List α} (h : ∀ a ∈ l, (f a).WellKeyed) :
    (ofList f l).WellKeyed := by
  have hheight : ∀ a ∈ l, (f a).height ≤ (ofList f l).height :=
    height_ofList_le_iff.mp (Nat.le_succ _)
  refine ⟨(within_ofList fun a ha ↦ ⟨(h a ha).distinct, hheight a ha⟩).1,
    (ofList f l).height + 1, ?_⟩
  exact unwritable?_ofList_eq_none_iff.mpr fun a ha ↦ (h a ha).unwritable? (hheight a ha)

theorem wellKeyed_ofOption {f : α → Json} {o : Option α} (h : ∀ a ∈ o, (f a).WellKeyed) :
    (ofOption f o).WellKeyed := by
  cases o with
  | none => exact wellKeyed_null
  | some a => exact h a rfl

end Json

/-! ## Free mappings -/

namespace Fields

/-- Whether no value of a mapping repeats a key, and all keys below its own can be encoded. -/
def AllWellKeyed (m : Fields) : Prop := ∀ f ∈ m, f.2.WellKeyed

theorem wellKeyed_write {m : Fields} (h : m.AllWellKeyed) : m.write.WellKeyed := by
  have hvalues : ∀ f ∈ m.settled, f.2.WellKeyed := by
    intro f hf
    obtain ⟨g, hg, rfl⟩ := mem_settled hf
    exact (h g hg).finite
  have hnames : ∀ f ∈ m.settled, Utf8.encodeFault? f.1 = none := by
    intro f hf
    obtain ⟨g, -, rfl⟩ := mem_settled hf
    exact (congrArg _ (congrArg Text.ofChars String.toList_ofList.symm)).trans
      (Utf8.encodeFault?_ofString (String.ofList g.1.readable))
  refine ⟨⟨nodup_settled m, Json.distinctFields_iff.mpr fun f hf ↦ (hvalues f hf).distinct⟩,
    Json.heightFields m.settled + 1, ?_⟩
  exact Json.unwritableFields?_eq_none_iff.mpr fun f hf ↦
    ⟨hnames f hf, (hvalues f hf).unwritable? (Json.heightFields_le_iff.mp le_rfl f hf)⟩

theorem allWellKeyed_of_writeFault?_eq_none {m : Fields} (h : Json.DistinctFields m)
    (hfault : m.writeFault? = none) : m.AllWellKeyed := fun f hf ↦
  ⟨Json.distinctFields_iff.mp h f hf, _,
    Option.map_eq_none_iff.mp (List.findSome?_eq_none_iff.mp hfault f hf)⟩

end Fields

/-! ## Parts -/

theorem Timeout.wellKeyed_write (t : Timeout) : t.write.WellKeyed := by
  cases t with
  | whole n => exact Json.wellKeyed_int n
  | fractional x => exact Json.wellKeyed_float x

namespace StepTarget

theorem wellKeyed_write (s : Spelling) {target : StepTarget}
    (h : ∀ v ∈ target.freeValues, v.WellKeyed) : (target.write s).WellKeyed := by
  cases target with
  | agent call =>
    have hconfig : call.config.WellKeyed := h _ List.mem_cons_self
    apply Json.wellKeyed_single
    apply Json.wellKeyed_record (of_decide_eq_true rfl)
    simp only [List.forall_mem_cons]
    exact ⟨Json.wellKeyed_string _, hconfig.finite, nofun⟩
  | workflow call =>
    apply Json.wellKeyed_single
    apply Json.wellKeyed_record (of_decide_eq_true rfl)
    simp only [List.forall_mem_cons]
    exact ⟨Json.wellKeyed_string _, Json.wellKeyed_string _, nofun⟩

theorem wellKeyed_of_choiceFault?_eq_none {target : StepTarget}
    (h : ∀ v ∈ target.freeValues, v.Distinct) (hfault : target.choiceFault? = none) :
    ∀ v ∈ target.freeValues, v.WellKeyed := by
  cases target with
  | workflow call => exact nofun
  | agent call =>
    rw [freeValues, List.forall_mem_singleton] at h ⊢
    refine ⟨h, ?_⟩
    cases hwrite : call.config.writeFault? with
    | none => exact ⟨_, Option.map_eq_none_iff.mp hwrite⟩
    | some fault =>
      -- it can still be written as a free value
      rw [choiceFault?, hwrite, Option.bind_some, Option.map_eq_none_iff] at hfault
      exact ⟨_, hfault⟩

end StepTarget

theorem Loop.wellKeyed_write (s : Spelling) (loop : Loop) : (loop.write s).WellKeyed := by
  have hbound : ∀ bound, (writeBound bound).WellKeyed := fun _ ↦
    Json.wellKeyed_ofOption fun n _ ↦ Json.wellKeyed_int n
  cases loop with
  | forEach loop =>
    apply Json.wellKeyed_single
    apply Json.wellKeyed_record (of_decide_eq_true rfl)
    simp only [List.forall_mem_cons]
    exact ⟨Json.wellKeyed_string _, Json.wellKeyed_string _, Json.wellKeyed_string _, hbound _,
      nofun⟩
  | whileHolds loop =>
    apply Json.wellKeyed_single
    apply Json.wellKeyed_record (of_decide_eq_true rfl)
    simp only [List.forall_mem_cons]
    exact ⟨Json.wellKeyed_string _, hbound _, nofun⟩
  | repeated loop =>
    apply Json.wellKeyed_single
    apply Json.wellKeyed_record (of_decide_eq_true rfl)
    simp only [List.forall_mem_cons]
    exact ⟨Json.wellKeyed_int _, Json.wellKeyed_ofOption fun t _ ↦ Json.wellKeyed_string t, nofun⟩
  | once => exact Json.wellKeyed_single Json.wellKeyed_null

theorem FieldMatch.wellKeyed_write (s : Spelling) (test : FieldMatch) :
    (test.write s).WellKeyed := by
  apply Json.wellKeyed_record (of_decide_eq_true rfl)
  simp only [List.forall_mem_cons]
  exact ⟨Json.wellKeyed_string _, Json.wellKeyed_string _, nofun⟩

namespace Condition

theorem wellKeyed_write (s : Spelling) {c : Condition} (h : ∀ v ∈ c.markers, v.WellKeyed) :
    (c.write s).WellKeyed := by
  rw [write_eq]
  apply Json.wellKeyed_record (c.allApart_entries s).presentFields
  intro f hf
  obtain ⟨v, hv, hfv⟩ | ⟨test, htest⟩ := eq_of_mem_present hf
  · rw [hfv]
    exact (h v hv).finite
  · rw [htest]
    exact Json.wellKeyed_ofOption fun test _ ↦ test.wellKeyed_write s

theorem wellKeyed_of_writeFault?_eq_none {c : Condition} (h : ∀ v ∈ c.markers, v.Distinct)
    (hfault : c.writeFault? = none) : ∀ v ∈ c.markers, v.WellKeyed := by
  rw [writeFault?, Option.or_eq_none_iff, Option.map_eq_none_iff,
    List.findSome?_eq_none_iff] at hfault
  exact fun v hv ↦ ⟨h v hv, _, hfault.1 v hv⟩

end Condition

end AgentFlow
