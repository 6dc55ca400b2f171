import AgentFlow.Proofs.Run.Loading
import AgentFlow.Proofs.Template.Library

/-!
# When a library is written

Whether a file of templates can be written is decided template by template: its free values have to
be writable, its whole numbers short enough, and none of its texts may hold half of a surrogate pair
(`Template.Storable`). None of this depends on the other templates, not even on where in the file a
template stands. So a library whose templates can be stored can be written after any of them are
taken out (`Library.write_eq_ok_iff`).

A template that comes back from a file is settled. It can be stored if the one that was saved could.
-/

namespace AgentFlow

open CodePoint (char)

/-! ## Halves of surrogate pairs -/

namespace Json

variable {style : Style} {depth : Nat} {vs : List Json}

/-- Whether a value can be encoded where it stands at a depth. -/
def Encodes (style : Style) (depth : Nat) (v : Json) : Prop :=
  ∀ c ∈ v.write style depth, c.isHalf = false

instance {v : Json} : Decidable (v.Encodes style depth) :=
  inferInstanceAs (Decidable (∀ c ∈ v.write style depth, c.isHalf = false))

theorem isHalf_of_mem_gap : ∀ c ∈ style.gap depth, c.isHalf = false := by
  rw [Style.gap]
  split
  next => exact List.forall_mem_nil _
  next => exact List.forall_mem_cons.mpr ⟨rfl, fun c hc ↦ List.eq_of_mem_replicate hc ▸ rfl⟩

theorem isHalf_of_mem_separator : ∀ c ∈ style.separator depth, c.isHalf = false := by
  rw [Style.separator]
  split
  next => exact List.forall_mem_cons.mpr ⟨rfl, List.forall_mem_singleton.mpr rfl⟩
  next => exact List.forall_mem_cons.mpr ⟨rfl, isHalf_of_mem_gap⟩

theorem isHalf_writeItems_iff :
    (∀ c ∈ writeItems style depth vs, c.isHalf = false) ↔ ∀ v ∈ vs, v.Encodes style depth := by
  induction vs with
  | nil => simp [writeItems]
  | cons v vs ih =>
    have hseparator : ∀ c ∈ style.separator depth, c.isHalf = false := isHalf_of_mem_separator
    rw [writeItems, List.forall_mem_append, List.forall_mem_append, ih, List.forall_mem_cons,
      and_iff_right hseparator]
    rfl

/-- The elements of a list stand one level deeper, each by itself. -/
theorem encodes_array_iff :
    (array vs).Encodes style depth ↔ ∀ v ∈ vs, v.Encodes style (depth + 1) := by
  rcases vs with - | ⟨v, vs⟩
  · exact iff_of_true (List.forall_mem_cons.mpr ⟨rfl, List.forall_mem_singleton.mpr rfl⟩) nofun
  · have hopen : ∀ c ∈ char '[' :: style.gap (depth + 1), c.isHalf = false :=
      List.forall_mem_cons.mpr ⟨rfl, isHalf_of_mem_gap⟩
    have hgap : ∀ c ∈ style.gap depth, c.isHalf = false := isHalf_of_mem_gap
    have hclose : ∀ c ∈ [char ']'], c.isHalf = false := List.forall_mem_singleton.mpr rfl
    rw [Encodes, write]
    iterate 4 rw [List.forall_mem_append]
    rw [and_iff_left hclose, and_iff_left hgap, and_iff_right hopen, isHalf_writeItems_iff,
      List.forall_mem_cons]
    rfl

theorem encodeFault?_ofList_eq_none_iff {α : Type} {f : α → Json} {l : List α} :
    Utf8.encodeFault? (ofList f l).pretty = none ↔ ∀ a ∈ l, (f a).Encodes ⟨some 2, false⟩ 1 := by
  rw [Utf8.encodeFault?_eq_none_iff, ← List.forall_mem_map]
  exact encodes_array_iff

end Json

/-! ## Settled templates -/

theorem NodeData.writeFault?_settled {d : NodeData} (h : d.writeFault? = none) :
    d.settled.writeFault? = none := by
  rw [writeFault?, Option.or_eq_none_iff, Option.or_eq_none_iff, Option.bind_eq_none_iff] at h ⊢
  obtain ⟨⟨hconfig, htrigger⟩, htarget⟩ := h
  refine ⟨⟨(Json.writeFault?_finite _).trans hconfig, fun m hm ↦ ?_⟩, ?_⟩
  · obtain ⟨m, hm', rfl⟩ := Option.map_eq_some_iff.mp hm
    exact Fields.writeFault?_settled (htrigger m hm')
  · rw [← htarget, settled, Option.bind_map]
    exact congrArg _ (funext StepTarget.choiceFault?_settled)

theorem Edge.writeFault?_settled (e : Edge) : e.settled.writeFault? = e.writeFault? := by
  obtain ⟨_, _, _, _, _, _ | ⟨_ | condition, _⟩⟩ := e
  · rfl
  · rfl
  · exact condition.writeFault?_settled

namespace Template

variable {t : Template} {ts : List Template}

theorem writeFault?_eq_none_iff :
    t.writeFault? = none ↔
      (∀ n ∈ t.nodes, n.writeFault? = none) ∧ ∀ e ∈ t.edges, e.writeFault? = none := by
  rw [writeFault?, Graph.writeFault?, Option.or_eq_none_iff, List.findSome?_eq_none_iff,
    List.findSome?_eq_none_iff]

theorem settled_settled (t : Template) : t.settled.settled = t.settled := by
  have hread := t.settled.value?_read_write .wire
  rw [write_settled, value?_read_write] at hread
  exact (Option.some.inj hread).symm

/-! ## Templates that can be stored -/

/-- What it takes for a template to stand in a file. -/
structure Storable (t : Template) : Prop where
  fault : t.writeFault? = none
  short : (t.write .wire).hasLongInteger = false
  encodes : (t.write .wire).Encodes ⟨some 2, false⟩ 1

theorem Storable.settled (h : t.Storable) : t.settled.Storable where
  fault := by
    obtain ⟨hnodes, hedges⟩ := writeFault?_eq_none_iff.mp h.fault
    refine writeFault?_eq_none_iff.mpr ⟨List.forall_mem_map.mpr fun n hn ↦ ?_,
      List.forall_mem_map.mpr fun e he ↦ ?_⟩
    · exact NodeData.writeFault?_settled (hnodes n hn)
    · exact e.writeFault?_settled.trans (hedges e he)
  short := by rw [write_settled]; exact h.short
  encodes := by rw [write_settled]; exact h.encodes

/-- A file can be written if each of its templates can be stored. -/
theorem exists_fileText_iff :
    (∃ s, fileText ts = .ok s ∧ Utf8.encodeFault? s = none) ↔ ∀ t ∈ ts, t.Storable := by
  simp only [fileText, fileText_eq_ok_iff, and_assoc, exists_and_left, exists_eq_left',
    List.findSome?_eq_none_iff, Json.hasLongInteger_ofList_eq_false_iff,
    Json.encodeFault?_ofList_eq_none_iff]
  constructor
  · rintro ⟨hfault, hshort, hencodes⟩ t ht
    exact ⟨hfault t ht, hshort t ht, hencodes t ht⟩
  · intro h
    exact ⟨fun t ht ↦ (h t ht).fault, fun t ht ↦ (h t ht).short, fun t ht ↦ (h t ht).encodes⟩

end Template

/-! ## Libraries -/

namespace Library

variable {library : Library} {storage : Storage} {ts : List Template}

/-- **A library is written** if its file can be opened and each template can be stored. -/
theorem write_eq_ok_iff :
    (library.write storage ts).outcome = .ok () ↔
      (∃ place, storage.Opens library.project place) ∧ ∀ t ∈ ts, t.Storable := by
  rw [← Template.exists_fileText_iff]
  constructor
  · intro h
    obtain ⟨place, s, hopens, hs, hencode, -⟩ := exists_of_write h
    exact ⟨⟨place, hopens⟩, s, hs, hencode⟩
  · rintro ⟨⟨place, hopens⟩, s, hs, hencode⟩
    rw [write, hopens.makeFault?_eq_none, hs]
    dsimp only
    rw [hopens.write_text hencode]
    rfl

/-- **A template is saved** if its form makes one that can be stored, and the templates that are
listed can be stored with it. -/
theorem save_eq_ok_iff {form : TemplateForm} {t : Template} :
    (library.save storage form).outcome = .ok t ↔
      form.template = .ok t ∧ (∃ place, storage.Opens library.project place) ∧
        ∃ ts, library.templates storage = .ok ts ∧ ∀ u ∈ ts ++ [t], u.Storable := by
  constructor
  · intro h
    obtain ⟨ts, ht, hts, hwrite, -⟩ := exists_of_save h
    obtain ⟨hopen, hstorable⟩ := write_eq_ok_iff.mp hwrite
    exact ⟨ht, hopen, ts, hts, hstorable⟩
  · rintro ⟨ht, hopen, ts, hts, hstorable⟩
    rw [save, ht, hts]
    dsimp only
    rw [write_eq_ok_iff.mpr ⟨hopen, hstorable⟩]
    rfl

end Library

end AgentFlow
