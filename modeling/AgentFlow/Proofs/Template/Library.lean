import AgentFlow.Proofs.Template.File
import AgentFlow.Proofs.Template.Storage

/-!
# Operations of template libraries

What a library lists depends on the file of its project alone, and all that an operation does to the
files is to write that file whole. Writing ends in one of three ways (`Library.write_cases`): it is
refused and nothing changes but that the shared folder is made, the text cannot be encoded and the
file is left empty, or the file holds the text and its templates are listed settled
(`Library.templates_write`).

Saving and deleting check what they can before they write (`Library.save_cases`,
`Library.delete_cases`), so what they leave alone follows from the three ways
(`Library.Confined`).
-/

namespace AgentFlow

/-! ## Outcomes -/

section Outcomes

variable {ε α β : Type} {x : Except ε α} {f : α → β}

theorem map_eq_ok_iff {b : β} : x.map f = .ok b ↔ ∃ a, x = .ok a ∧ f a = b := by
  cases x <;> simp [Except.map]

theorem map_eq_error_iff {e : ε} : x.map f = .error e ↔ x = .error e := by
  cases x <;> simp [Except.map]

end Outcomes

/-! ## Forms -/

/-- The template of a form has the nodes and edges of its workflow. -/
theorem TemplateForm.graph_of_template {form : TemplateForm} {t : Template}
    (h : form.template = .ok t) : form.graph = ⟨t.nodes, t.edges⟩ := by
  rw [template] at h
  obtain ⟨name, -, h⟩ := bind_eq_ok_iff.mp h
  obtain ⟨time, -, h⟩ := bind_eq_ok_iff.mp h
  dsimp only at h
  split at h
  next =>
    obtain ⟨-, -, h⟩ := bind_eq_ok_iff.mp h
    obtain ⟨mode, -, h⟩ := bind_eq_ok_iff.mp h
    obtain rfl := Except.ok.inj h
    rfl
  next => exact absurd h nofun

namespace Library

variable {library : Library} {storage after : Storage} {ts : List Template} {t : Template}
  {form : TemplateForm} {id : Text} {fault : LibraryFault}

/-! ## Listing -/

/-- What is listed depends on the file of the project alone. -/
theorem templates_congr {other : Library}
    (h : after.find other.project = storage.find library.project) :
    other.templates after = library.templates storage := by
  rw [templates, templates, listing, listing, h]

theorem templates_of_find_eq_none (h : storage.find library.project = .ok none) :
    library.templates storage = .ok [] := by
  rw [templates, listing, h]
  rfl

theorem templates_of_find_eq_error {fault : StorageFault}
    (h : storage.find library.project = .error fault) :
    library.templates storage = .error (.storage fault) := by
  rw [templates, listing, h]
  rfl

/-- Templates are listed where they can be read, and none elsewhere, unless something other than a
refusal keeps them from being listed. -/
theorem templates_cases (library : Library) (storage : Storage) :
    (∃ fault, (∀ cause, fault ≠ .refused cause) ∧ library.templates storage = .error fault) ∨
    library.templates storage = .ok [] ∨
    ∃ content ts, Template.ofFile content = .ok (some ts) ∧
      library.templates storage = .ok ts := by
  rw [templates, listing]
  split
  next fault _ => exact .inl ⟨.storage fault, nofun, rfl⟩
  next => exact .inr (.inl rfl)
  next content _ =>
    cases hfile : Template.ofFile content with
    | error container => exact .inl ⟨.tooDeep container, nofun, rfl⟩
    | ok found =>
      cases found with
      | none => exact .inr (.inl rfl)
      | some ts => exact .inr (.inr ⟨content, ts, hfile, rfl⟩)

/-- What is listed repeats no key in its free values. -/
theorem distinct_of_templates (h : library.templates storage = .ok ts) :
    ∀ t ∈ ts, t.AllFree Json.Distinct Json.DistinctFields := by
  obtain ⟨fault, -, herror⟩ | hnil | ⟨content, us, hfile, hus⟩ := library.templates_cases storage
  · exact absurd (herror.symm.trans h) nofun
  · obtain rfl := Except.ok.inj (hnil.symm.trans h)
    exact nofun
  · obtain rfl := Except.ok.inj (hus.symm.trans h)
    exact Template.distinct_of_ofFile hfile

theorem ne_refused_of_templates (h : library.templates storage = .error fault)
    (cause : TemplateFault) : fault ≠ .refused cause := by
  obtain ⟨fault, hfault, herror⟩ | hnil | ⟨content, us, -, hus⟩ := library.templates_cases storage
  · exact Except.error.inj (herror.symm.trans h) ▸ hfault cause
  · exact absurd (hnil.symm.trans h) nofun
  · exact absurd (hus.symm.trans h) nofun

/-! ## Files that stay -/

section Confined

variable {α β : Type} {change : Change LibraryFault α}

/-- What a change on behalf of a library can do to the files. Where it fails it writes none, unless
it is the text that cannot be encoded. -/
structure Confined (library : Library) (storage : Storage) (change : Change LibraryFault α) :
    Prop where
  writes : storage.Writes library.project change.storage
  failed : ∀ fault, change.outcome = .error fault →
    (∀ cause, fault = .storage (.unencodable cause) →
      Utf8.nameFault? (storage.path library.project).text = some cause) →
        change.storage = storage ∨ change.storage = storage.made

theorem confined_of_storage (h : change.storage = storage) : library.Confined storage change :=
  ⟨h ▸ .none, fun _ _ _ ↦ .inl h⟩

theorem Confined.map (h : library.Confined storage change) (f : α → β) :
    library.Confined storage ⟨change.storage, change.outcome.map f⟩ :=
  ⟨h.writes, fun fault hfault ↦ h.failed fault (map_eq_error_iff.mp hfault)⟩

end Confined

/-! ## Writing -/

theorem write_cases (library : Library) (storage : Storage) (ts : List Template) :
    (∃ fault, (∀ cause, fault ≠ .refused cause) ∧
      (∀ cause, fault = .storage (.unencodable cause) →
        Utf8.nameFault? (storage.path library.project).text = some cause) ∧
      library.write storage ts = .refused storage.made fault) ∨
    (∃ place cause, storage.Opens library.project place ∧ library.write storage ts
      = ⟨storage.made.put place (.text ""), .error (.storage (.unencodable cause))⟩) ∨
    ∃ place s, storage.Opens library.project place ∧
      Template.fileText ts = .ok s ∧ Utf8.encodeFault? s = none ∧
      library.write storage ts = ⟨storage.made.put place (.text s), .ok ()⟩ := by
  rw [write]
  cases hfault : storage.makeFault? with
  | some fault =>
    refine .inl ⟨.storage fault, nofun, fun cause hcause ↦ ?_, ?_⟩
    · obtain rfl := LibraryFault.storage.inj hcause
      exact absurd hfault (Storage.makeFault?_ne_unencodable cause)
    · rw [Storage.made_of_makeFault? hfault]
  | none =>
    cases hs : Template.fileText ts with
    | error fault => exact .inl ⟨.unwritable fault, nofun, nofun, rfl⟩
    | ok s =>
      dsimp only
      obtain ⟨fault, hname, hwrite⟩ | ⟨place, cause, hopens, -, hwrite⟩ |
        ⟨place, hopens, hencode, hwrite⟩ := storage.write_cases library.project (.text s)
      · refine .inl ⟨.storage fault, nofun, fun cause hcause ↦ ?_, by rw [hwrite]; rfl⟩
        exact hname cause (LibraryFault.storage.inj hcause)
      · exact .inr (.inl ⟨place, cause, hopens, by rw [hwrite]; rfl⟩)
      · exact .inr (.inr ⟨place, s, hopens, rfl, hencode, by rw [hwrite]; rfl⟩)

theorem confined_write (library : Library) (storage : Storage) (ts : List Template) :
    library.Confined storage (library.write storage ts) := by
  obtain ⟨fault, -, -, hwrite⟩ | ⟨place, cause, hopens, hwrite⟩ |
    ⟨place, s, hopens, -, -, hwrite⟩ := library.write_cases storage ts
  · rw [hwrite]
    exact ⟨.made, fun _ _ _ ↦ .inr rfl⟩
  · rw [hwrite]
    refine ⟨.put hopens _, fun fault hfault hname ↦ ?_⟩
    -- a file that can be opened has a name that can be encoded
    have hcause := hname cause (Except.error.inj hfault).symm
    exact absurd hcause (by rw [hopens.nameFault?_eq_none]; nofun)
  · rw [hwrite]
    exact ⟨.put hopens _, fun fault hfault ↦ absurd hfault nofun⟩

/-- What was written is the text of the templates, in a file that could be opened. -/
theorem exists_of_write (h : (library.write storage ts).outcome = .ok ()) :
    ∃ place s, storage.Opens library.project place ∧
      Template.fileText ts = .ok s ∧ Utf8.encodeFault? s = none ∧
      (library.write storage ts).storage = storage.made.put place (.text s) := by
  obtain ⟨fault, -, -, hwrite⟩ | ⟨_, _, -, hwrite⟩ | ⟨place, s, hopens, hs, hencode, hwrite⟩ :=
    library.write_cases storage ts
  · rw [hwrite] at h
    exact absurd h nofun
  · rw [hwrite] at h
    exact absurd h nofun
  · exact ⟨place, s, hopens, hs, hencode, by rw [hwrite]⟩

/-- **What was written is listed**, with its free values as they are written. -/
theorem templates_write (hts : ∀ t ∈ ts, t.AllFree Json.Distinct Json.DistinctFields)
    (h : (library.write storage ts).outcome = .ok ()) :
    library.templates (library.write storage ts).storage = .ok (ts.map Template.settled) := by
  obtain ⟨place, s, hopens, hs, -, hafter⟩ := exists_of_write h
  rw [hafter, templates, listing, hopens.find_put]
  dsimp only
  rw [Template.ofFile_fileText hts hs]
  rfl

/-! ## Saving -/

/-- A template is saved after those that are listed, if they can be listed and it can be made. -/
theorem save_cases (library : Library) (storage : Storage) (form : TemplateForm) :
    (∃ fault, library.save storage form = .refused storage fault) ∨
    ∃ t ts, form.template = .ok t ∧ library.templates storage = .ok ts ∧
      library.save storage form = ⟨(library.write storage (ts ++ [t])).storage,
        (library.write storage (ts ++ [t])).outcome.map fun _ ↦ t⟩ := by
  rw [save]
  split
  next fault _ => exact .inl ⟨fault, rfl⟩
  next t fault _ _ => exact .inl ⟨fault, rfl⟩
  next t ts ht hts => exact .inr ⟨t, ts, ht, hts, rfl⟩

theorem confined_save (library : Library) (storage : Storage) (form : TemplateForm) :
    library.Confined storage (library.save storage form) := by
  obtain ⟨fault, hsave⟩ | ⟨t, ts, -, -, hsave⟩ := library.save_cases storage form
  · rw [hsave]
    exact confined_of_storage rfl
  · rw [hsave]
    exact (library.confined_write storage (ts ++ [t])).map _

/-- What was saved is the template of the form, behind those that were listed. -/
theorem exists_of_save (h : (library.save storage form).outcome = .ok t) :
    ∃ ts, form.template = .ok t ∧ library.templates storage = .ok ts ∧
      (library.write storage (ts ++ [t])).outcome = .ok () ∧
      (library.save storage form).storage = (library.write storage (ts ++ [t])).storage := by
  obtain ⟨fault, hsave⟩ | ⟨u, ts, hu, hts, hsave⟩ := library.save_cases storage form
  · rw [hsave] at h
    exact absurd h nofun
  · rw [hsave] at h ⊢
    obtain ⟨_, hwrite, rfl⟩ := map_eq_ok_iff.mp h
    exact ⟨ts, hu, hts, hwrite, rfl⟩

/-- **A saved template is listed last**, behind those that were listed, all with their free values
as they are written. -/
theorem templates_save (hform : form.graph.AllFree Json.Distinct Json.DistinctFields)
    (h : (library.save storage form).outcome = .ok t) :
    ∃ ts, library.templates storage = .ok ts ∧
      library.templates (library.save storage form).storage
        = .ok ((ts ++ [t]).map Template.settled) := by
  obtain ⟨ts, ht, hts, hwrite, hafter⟩ := exists_of_save h
  rw [TemplateForm.graph_of_template ht] at hform
  refine ⟨ts, hts, hafter ▸ templates_write (fun u hu ↦ ?_) hwrite⟩
  obtain hu | hu := List.mem_append.mp hu
  · exact distinct_of_templates hts u hu
  · exact List.mem_singleton.mp hu ▸ hform

/-! ## Deleting -/

/-- All templates of an id are deleted, if they can be listed and there is one. -/
theorem delete_cases (library : Library) (storage : Storage) (id : Text) :
    (∃ fault, (∀ cause, fault ≠ .refused cause) ∧ library.templates storage = .error fault ∧
      library.delete storage id = .refused storage fault) ∨
    (∃ ts, library.templates storage = .ok ts ∧ (∀ t ∈ ts, t.id ≠ id) ∧
      library.delete storage id = .refused storage (.refused (.notFound id))) ∨
    ∃ ts, library.templates storage = .ok ts ∧ (∃ t ∈ ts, t.id = id) ∧
      library.delete storage id = library.write storage (ts.filter fun t ↦ t.id ≠ id) := by
  rw [delete]
  split
  next fault hfault => exact .inl ⟨fault, ne_refused_of_templates hfault, hfault, rfl⟩
  next ts hts =>
    -- whether anything is taken out is decided by the length
    have hlength : (ts.filter fun t ↦ t.id ≠ id).length = ts.length ↔ ∀ t ∈ ts, t.id ≠ id := by
      simp [List.length_filter_eq_length_iff]
    by_cases hid : ∀ t ∈ ts, t.id ≠ id
    · exact .inr (.inl ⟨ts, hts, hid, if_pos (hlength.mpr hid)⟩)
    · exact .inr (.inr ⟨ts, hts, by simpa using hid, if_neg (mt hlength.mp hid)⟩)

theorem confined_delete (library : Library) (storage : Storage) (id : Text) :
    library.Confined storage (library.delete storage id) := by
  obtain ⟨fault, -, -, hdelete⟩ | ⟨ts, -, -, hdelete⟩ | ⟨ts, -, -, hdelete⟩ :=
    library.delete_cases storage id
  · rw [hdelete]
    exact confined_of_storage rfl
  · rw [hdelete]
    exact confined_of_storage rfl
  · rw [hdelete]
    exact library.confined_write storage _

/-- **What is left is listed** in order, with its free values as they are written. -/
theorem templates_delete (h : (library.delete storage id).outcome = .ok ()) :
    ∃ ts, library.templates storage = .ok ts ∧
      library.templates (library.delete storage id).storage
        = .ok ((ts.filter fun t ↦ t.id ≠ id).map Template.settled) := by
  obtain ⟨fault, -, -, hdelete⟩ | ⟨ts, -, -, hdelete⟩ | ⟨ts, hts, -, hdelete⟩ :=
    library.delete_cases storage id
  · rw [hdelete] at h
    exact absurd h nofun
  · rw [hdelete] at h
    exact absurd h nofun
  · rw [hdelete] at h ⊢
    refine ⟨ts, hts, templates_write (fun t ht ↦ ?_) h⟩
    exact distinct_of_templates hts t (List.mem_of_mem_filter ht)

/-- **The first template of an id is found.** -/
theorem get_eq_ok_iff :
    library.get storage id = .ok t ↔
      ∃ before rest, library.templates storage = .ok (before ++ t :: rest) ∧ t.id = id ∧
        ∀ u ∈ before, u.id ≠ id := by
  have hfind : ∀ ts : List Template, ts.find? (fun t ↦ t.id = id) = some t ↔
      ∃ before rest, ts = before ++ t :: rest ∧ t.id = id ∧ ∀ u ∈ before, u.id ≠ id := by
    intro ts
    simp only [List.find?_eq_some_iff_append, decide_eq_true_eq, Bool.not_eq_true',
      decide_eq_false_iff_not]
    constructor
    · rintro ⟨hid, before, rest, rfl, hbefore⟩
      exact ⟨before, rest, rfl, hid, hbefore⟩
    · rintro ⟨before, rest, rfl, hid, hbefore⟩
      exact ⟨hid, before, rest, rfl, hbefore⟩
  rw [get, bind_eq_ok_iff]
  constructor
  · rintro ⟨ts, hts, h⟩
    split at h
    next u hu =>
      obtain rfl := Except.ok.inj h
      obtain ⟨before, rest, rfl, hid, hbefore⟩ := (hfind ts).mp hu
      exact ⟨before, rest, hts, hid, hbefore⟩
    next => exact absurd h nofun
  · rintro ⟨before, rest, hts, hid, hbefore⟩
    refine ⟨_, hts, ?_⟩
    rw [(hfind _).mpr ⟨before, rest, rfl, hid, hbefore⟩]

end Library

end AgentFlow
