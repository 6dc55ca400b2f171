import AgentFlow.Proofs.Payload.RoundTrip

/-!
# Levels of models that are written

A model adds a few levels to those of its free values, and repeats no key if they do not. Nothing
keeps a free value from being written only if it has at most `freeHeight` levels, whether it is
written as it stands or, in a step target, as a free value once more.
-/

namespace AgentFlow

/-! ## Levels of what is written -/

section Levels

variable {n : Nat}

/-- What may be written of free values. -/
def Fields.AllWithin (n : Nat) (m : Fields) : Prop := ∀ f ∈ m, f.2.Within n

theorem within_text (t : Text) : (Json.string t).Within 1 := ⟨True.intro, Nat.le_refl 1⟩

theorem within_flag (b : Bool) : (Json.bool b).Within 1 := ⟨True.intro, Nat.le_refl 1⟩

theorem within_optional_text (t : Option Text) : (Json.ofOption .string t).Within 1 :=
  Json.within_ofOption Nat.one_pos fun t _ ↦ within_text t

theorem NodeData.within_write (s : Spelling) {d : NodeData}
    (h : d.AllFree (Json.Within n) (Fields.AllWithin n)) : (d.write s).Within (n + 3) := by
  obtain ⟨hconfig, htrigger, htarget⟩ := h
  have hn : 0 < n := hconfig.pos
  apply Json.within_record (of_decide_eq_true rfl)
  simp only [List.forall_mem_cons]
  refine ⟨?_, ?_, ?_, ?_, ?_, ?_, ?_, ?_, ?_, ?_, ?_, ?_, ?_, ?_, nofun⟩
  · exact (within_optional_text _).mono (by omega)
  · exact (within_text _).mono (by omega)
  · exact (within_text _).mono (by omega)
  · exact (within_flag _).mono (by omega)
  · exact (within_flag _).mono (by omega)
  · exact (Json.within_ofOption Nat.one_pos fun t _ ↦ t.within_write).mono (by omega)
  · exact (within_optional_text _).mono (by omega)
  · exact (within_optional_text _).mono (by omega)
  · exact (within_text _).mono (by omega)
  · exact (Json.within_ofList fun t _ ↦ within_text t).mono (by omega)
  · exact hconfig.finite.mono (by omega)
  · refine Json.within_ofOption (by omega) fun m hm ↦ ?_
    exact (Json.within_object_settled (htrigger m hm)).mono (by omega)
  · exact Json.within_ofOption (by omega) fun t ht ↦ t.within_write s hn (htarget t ht)
  · exact Json.within_ofOption (by omega) fun l _ ↦ (l.within_write s).mono (by omega)

theorem Node.within_write (s : Spelling) {node : Node}
    (h : node.AllFree (Json.Within n) (Fields.AllWithin n)) : (node.write s).Within (n + 4) := by
  have hposition : node.position.write.Within 2 := by
    apply Json.within_record (of_decide_eq_true rfl)
    simp only [List.forall_mem_cons]
    exact ⟨⟨True.intro, Nat.le_refl 1⟩, ⟨True.intro, Nat.le_refl 1⟩, nofun⟩
  apply Json.within_record (of_decide_eq_true rfl)
  simp only [List.forall_mem_cons]
  refine ⟨?_, ?_, ?_, ?_, nofun⟩
  · exact (within_text _).mono (by omega)
  · exact (within_text _).mono (by omega)
  · exact hposition.mono (by omega)
  · exact NodeData.within_write s h

theorem Edge.within_write (s : Spelling) {e : Edge} (hn : 2 ≤ n)
    (h : e.AllFree (Json.Within n)) : (e.write s).Within (n + 3) := by
  have hdata : ∀ d ∈ e.data, (d.write s).Within (n + 2) := by
    intro d hd
    apply Json.within_record (of_decide_eq_true rfl)
    simp only [List.forall_mem_cons]
    refine ⟨?_, ?_, nofun⟩
    · exact Json.within_ofOption (by omega) fun c hc ↦ c.within_write s hn (h d hd c hc)
    · exact (within_optional_text _).mono (by omega)
  apply Json.within_record (of_decide_eq_true rfl)
  simp only [List.forall_mem_cons]
  refine ⟨?_, ?_, ?_, ?_, ?_, ?_, nofun⟩
  · exact (within_text _).mono (by omega)
  · exact (within_text _).mono (by omega)
  · exact (within_text _).mono (by omega)
  · exact (within_text _).mono (by omega)
  · exact (within_flag _).mono (by omega)
  · exact Json.within_ofOption (by omega) hdata

theorem Step.within_write (s : Spelling) {step : Step} (hn : 0 < n)
    (h : step.AllFree (Json.Within n) (Fields.AllWithin n)) : (step.write s).Within (n + 3) := by
  obtain ⟨htrigger, htarget⟩ := h
  apply Json.within_record (of_decide_eq_true rfl)
  simp only [fields, requiredFields, optionalFields, List.cons_append, List.nil_append,
    List.forall_mem_cons]
  refine ⟨?_, ?_, ?_, ?_, ?_, ?_, ?_, ?_, ?_, List.forall_mem_nil _⟩
  · exact (within_text _).mono (by omega)
  · exact (within_text _).mono (by omega)
  · exact (within_text _).mono (by omega)
  · exact (within_flag _).mono (by omega)
  · exact (within_flag _).mono (by omega)
  · exact (Json.within_ofOption Nat.one_pos fun t _ ↦ t.within_write).mono (by omega)
  · refine Json.within_ofOption (by omega) fun m hm ↦ ?_
    exact (Json.within_object_settled (htrigger m hm)).mono (by omega)
  · exact Json.within_ofOption (by omega) fun t ht ↦ t.within_write s hn (htarget t ht)
  · exact Json.within_ofOption (by omega) fun l _ ↦ (l.within_write s).mono (by omega)

theorem Connection.within_write (s : Spelling) {c : Connection} (hn : 2 ≤ n)
    (h : c.AllFree (Json.Within n)) : (c.write s).Within (n + 2) := by
  apply Json.within_record (of_decide_eq_true rfl)
  simp only [List.forall_mem_cons]
  exact ⟨⟨True.intro, by simp [Json.height]⟩, ⟨True.intro, by simp [Json.height]⟩,
    c.condition.within_write s hn h, nofun⟩

end Levels

/-! ## Levels of what can be written -/

theorem Json.height_le_of_freeFault?_eq_none {v : Json} {below : Nat}
    (h : v.freeFault? below = none) : v.height ≤ freeHeight :=
  (height_le_of_unwritable?_eq_none h).trans (Nat.sub_le _ _)

theorem Json.height_le_of_writeFault?_eq_none {v : Json} (h : v.writeFault? = none) :
    v.height ≤ freeHeight :=
  height_le_of_freeFault?_eq_none (Option.map_eq_none_iff.mp h)

theorem StepTarget.height_le_of_choiceFault?_eq_none {target : StepTarget}
    (h : target.choiceFault? = none) : ∀ v ∈ target.freeValues, v.height ≤ freeHeight := by
  cases target with
  | workflow call => exact nofun
  | agent call =>
    rw [freeValues, List.forall_mem_singleton]
    cases hfault : call.config.writeFault? with
    | none => exact Json.height_le_of_writeFault?_eq_none hfault
    | some fault =>
      -- it can still be written as a free value
      rw [choiceFault?, hfault, Option.bind_some, Option.map_eq_none_iff] at h
      exact Json.height_le_of_freeFault?_eq_none h

theorem Fields.allWithin_of_writeFault?_eq_none {m : Fields} (h : Json.DistinctFields m)
    (hfault : m.writeFault? = none) : m.AllWithin freeHeight := by
  intro f hf
  have hfree : f.2.writeFault? = none := List.findSome?_eq_none_iff.mp hfault f hf
  exact ⟨Json.distinctFields_iff.mp h f hf, Json.height_le_of_writeFault?_eq_none hfree⟩

theorem StepTarget.within_of_choiceFault?_eq_none {target : StepTarget}
    (h : ∀ v ∈ target.freeValues, v.Distinct) (hfault : target.choiceFault? = none) :
    ∀ v ∈ target.freeValues, v.Within freeHeight := fun v hv ↦
  ⟨h v hv, height_le_of_choiceFault?_eq_none hfault v hv⟩

end AgentFlow
