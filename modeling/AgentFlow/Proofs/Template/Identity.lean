import AgentFlow.Proofs.Number.Digits
import AgentFlow.Proofs.Template.Run
import AgentFlow.Proofs.Template.Writing

/-!
# Templates by their ids

The id of a saved template is the clock reading of its form in whole milliseconds, and nothing else.
So two templates have the same id exactly if they were saved in the same whole millisecond
(`TemplateForm.id_eq_iff`), however far apart the readings are within it. Looking up an id then finds
the template that was saved first, and deleting it takes out both (`Library.exists_unlike_by_id`).

Of a run of one library that starts without a file, what is kept is read off the answers: a template
is kept from its save to a deletion of its id, or to a save whose text cannot be encoded, which
empties the file. The library lists what is kept after every run (`Library.Holds.run`), and it can be
written again without any of it, so a template that shares its millisecond with no other kept one is
found by its id, and deleting the id takes out this one (`Library.found_and_deleted`).
-/

namespace AgentFlow

/-! ## Ids -/

theorem intDigits_injective : Function.Injective intDigits := by
  have hdigits : ∀ {m n : Nat}, decimalDigits m = decimalDigits n → m = n := by
    intro m n h
    rw [← digitsValue_decimalDigits m, h, digitsValue_decimalDigits]
  -- a minus sign is no digit
  have hsign : ∀ {m n : Nat}, '-' :: decimalDigits m ≠ decimalDigits n := by
    intro m n h
    have hmem : '-' ∈ decimalDigits n := h ▸ List.mem_cons_self
    exact absurd (isAsciiDigit_of_mem_decimalDigits hmem) (by decide)
  intro m n h
  rw [intDigits, intDigits] at h
  by_cases hm : m < 0
  · by_cases hn : n < 0
    · rw [if_pos hm, if_pos hn, List.cons.injEq] at h
      have habs := hdigits h.2
      omega
    · rw [if_pos hm, if_neg hn] at h
      exact absurd h hsign
  · by_cases hn : n < 0
    · rw [if_neg hm, if_pos hn] at h
      exact absurd h.symm hsign
    · rw [if_neg hm, if_neg hn] at h
      have habs := hdigits h
      omega

namespace TemplateForm

variable {form other : TemplateForm} {t u : Template} {fault : LibraryFault}

theorem exists_id_of_template (h : form.template = .ok t) :
    ∃ time, milliseconds form.now = .ok time ∧
      t.id = Template.savedMark ++ Text.ofChars (intDigits time) := by
  rw [template] at h
  obtain ⟨name, -, h⟩ := bind_eq_ok_iff.mp h
  obtain ⟨time, htime, h⟩ := bind_eq_ok_iff.mp h
  refine ⟨time, mapError_eq_ok_iff.mp htime, ?_⟩
  dsimp only at h
  split at h
  next =>
    obtain ⟨-, -, h⟩ := bind_eq_ok_iff.mp h
    obtain ⟨mode, -, h⟩ := bind_eq_ok_iff.mp h
    obtain rfl := Except.ok.inj h
    rfl
  next => cases h

/-- **An id is a millisecond.** -/
theorem id_eq_iff (ht : form.template = .ok t) (hu : other.template = .ok u) :
    t.id = u.id ↔ milliseconds form.now = milliseconds other.now := by
  obtain ⟨time, htime, hid⟩ := exists_id_of_template ht
  obtain ⟨time', htime', hid'⟩ := exists_id_of_template hu
  rw [hid, hid', htime, htime', Except.ok.injEq]
  constructor
  · intro h
    have hchars := congrArg Text.chars? (List.append_cancel_left h)
    rw [Text.chars?_ofChars, Text.chars?_ofChars] at hchars
    exact intDigits_injective (Option.some.inj hchars)
  · rintro rfl
    rfl

/-- No file has a part in what a form makes. -/
theorem ne_storage_of_template (h : form.template = .error fault) (cause : StorageFault) :
    fault ≠ .storage cause := by
  rintro rfl
  rw [template] at h
  rcases hname : form.checkedName with e | name <;> rw [hname] at h
  · cases h
  rcases htime : milliseconds form.now with e | time <;> rw [htime] at h
  · cases h
  rcases hcopied : form.graph.isCopied with - | - <;> rw [hcopied] at h
  · cases h
  rcases hmode : form.givenMode with e | mode <;> rw [hmode] at h
  · cases h
  · cases h

end TemplateForm

/-! ## Files that are emptied -/

namespace Library

variable {library : Library} {storage : Storage} {form : TemplateForm} {ts : List Template}
  {fault : LibraryFault} {cause : Utf8.EncodeFault}

theorem ne_unencodable_of_templates (h : library.templates storage = .error fault)
    (cause : Utf8.EncodeFault) : fault ≠ .storage (.unencodable cause) := by
  rintro rfl
  have hlisting := map_eq_error_iff.mp h
  rw [listing] at hlisting
  split at hlisting
  next fault hfind =>
    obtain rfl := LibraryFault.storage.inj (Except.error.inj hlisting)
    exact absurd hfind (Storage.find_ne_unencodable cause)
  next => cases hlisting
  next content _ =>
    rcases hfile : Template.ofFile content with container | found <;> rw [hfile] at hlisting
    · cases hlisting
    · cases hlisting

/-- A write whose text cannot be encoded leaves an empty file, and one for whose path that holds
leaves none. -/
theorem find_of_write_unencodable
    (h : (library.write storage ts).outcome = .error (.storage (.unencodable cause))) :
    (library.write storage ts).storage.find library.project = .ok none ∨
      (library.write storage ts).storage.find library.project = .ok (some (.text "")) := by
  obtain ⟨fault, -, hname, hwrite⟩ | ⟨place, _, hopens, hwrite⟩ | ⟨_, s, -, -, -, hwrite⟩ :=
    library.write_cases storage ts
  · rw [hwrite] at h ⊢
    obtain rfl := Except.error.inj h
    have hpath := hname cause rfl
    rw [← storage.path_made] at hpath
    exact .inl (Storage.find_of_nameFault? hpath)
  · rw [hwrite]
    exact .inr (hopens.find_put _)
  · rw [hwrite] at h
    cases h

/-- A save whose text cannot be encoded leaves no templates. -/
theorem templates_of_save_unencodable
    (h : (library.save storage form).outcome = .error (.storage (.unencodable cause))) :
    library.templates (library.save storage form).storage = .ok [] := by
  rw [save] at h ⊢
  split at h
  next fault ht =>
    exact absurd (Except.error.inj h) (TemplateForm.ne_storage_of_template ht _)
  next t fault ht hts =>
    exact absurd (Except.error.inj h) (ne_unencodable_of_templates hts cause)
  next t ts ht hts =>
    dsimp only
    obtain hnone | hempty := find_of_write_unencodable (map_eq_error_iff.mp h)
    · exact templates_of_find_eq_none hnone
    · have hfile : Template.ofFile (.text "") = .ok none := by decide +kernel
      rw [templates, listing, hempty]
      dsimp only
      rw [hfile]
      rfl

/-! ## What is kept -/

/-- The calls of a run with what came of each. -/
def entries (library : Library) :
    Storage → List Call → List (Call × Except LibraryFault Answer)
  | _, [] => []
  | storage, call :: rest =>
    (call, (library.answer storage call).outcome)
      :: entries library (library.answer storage call).storage rest

/-- The files after a run. -/
def after (library : Library) (storage : Storage) (calls : List Call) : Storage :=
  calls.foldl (fun storage call ↦ (library.answer storage call).storage) storage

/-- What becomes of the templates that are kept, each with the form that it was saved from, by a call
with this outcome: a saved one is added, and those of a deleted id are taken out. A save whose text
cannot be encoded loses all of them. -/
def Call.keep (call : Call) (outcome : Except LibraryFault Answer)
    (kept : List (TemplateForm × Template)) : List (TemplateForm × Template) :=
  match call, outcome with
  | .save form, .ok (.saved t) => kept ++ [(form, t)]
  | .save _, .error (.storage (.unencodable _)) => []
  | .delete id, .ok _ => kept.filter fun p ↦ p.2.id ≠ id
  | _, _ => kept

/-- The templates that were saved in a run and are kept at its end, in the order of their saves. -/
def kept (library : Library) (storage : Storage) (calls : List Call) :
    List (TemplateForm × Template) :=
  (library.entries storage calls).foldl (fun kept e ↦ e.1.keep e.2 kept) []

/-- A library holds the templates that are kept: it lists them, and it can be written with any of
them. A library whose file cannot be looked up lists nothing and keeps nothing. -/
structure Holds (library : Library) (storage : Storage)
    (kept : List (TemplateForm × Template)) : Prop where
  made : ∀ p ∈ kept, p.1.template = .ok p.2
  storable : ∀ p ∈ kept, p.2.Storable
  writable : kept ≠ [] → ∃ place, storage.Opens library.project place
  listed : library.templates storage = .ok (kept.map fun p ↦ p.2.settled) ∨
    kept = [] ∧ ∃ fault, library.templates storage = .error fault

namespace Holds

variable {kept : List (TemplateForm × Template)} {t : Template} {id : Text}

/-- A library without a file holds nothing. -/
theorem nil (hmissing : storage.file? library.project = none) : library.Holds storage [] := by
  refine ⟨nofun, nofun, fun hne ↦ absurd rfl hne, ?_⟩
  rw [Storage.file?] at hmissing
  split at hmissing
  next content hfind => exact .inl (templates_of_find_eq_none (hmissing ▸ hfind))
  next fault hfind => exact .inr ⟨rfl, _, templates_of_find_eq_error hfind⟩

theorem eq_of_templates (h : library.Holds storage kept) (hts : library.templates storage = .ok ts) :
    ts = kept.map fun p ↦ p.2.settled := by
  rcases h.listed with hlisted | ⟨-, fault, hfault⟩
  · exact Except.ok.inj (hts.symm.trans hlisted)
  · exact absurd (hts.symm.trans hfault) nofun

theorem templates_of_ne_nil (h : library.Holds storage kept) (hne : kept ≠ []) :
    library.templates storage = .ok (kept.map fun p ↦ p.2.settled) := by
  rcases h.listed with hlisted | ⟨hnil, -⟩
  · exact hlisted
  · exact absurd hnil hne

/-- What is listed can be stored again. -/
theorem storable_of_templates (h : library.Holds storage kept)
    (hts : library.templates storage = .ok ts) : ∀ t ∈ ts, t.Storable := by
  rw [h.eq_of_templates hts]
  exact List.forall_mem_map.mpr fun p hp ↦ (h.storable p hp).settled

theorem map_settled_settled (kept : List (TemplateForm × Template)) :
    (kept.map fun p ↦ p.2.settled).map Template.settled = kept.map fun p ↦ p.2.settled := by
  rw [List.map_map]
  exact List.map_congr_left fun p _ ↦ p.2.settled_settled

/-- Saving a template that can be stored succeeds: the others can be stored again. -/
theorem save_ok (h : library.Holds storage kept)
    (hopen : ∃ place, storage.Opens library.project place)
    (hts : library.templates storage = .ok ts) (hmade : form.template = .ok t)
    (hstorable : t.Storable) : (library.save storage form).outcome = .ok t :=
  save_eq_ok_iff.mpr ⟨hmade, hopen, ts, hts, List.forall_mem_append.mpr
    ⟨h.storable_of_templates hts, List.forall_mem_singleton.mpr hstorable⟩⟩

/-- A saved template is held with the others. -/
theorem save (h : library.Holds storage kept)
    (hform : form.graph.AllFree Json.Distinct Json.DistinctFields)
    (ht : (library.save storage form).outcome = .ok t) :
    library.Holds (library.save storage form).storage (kept ++ [(form, t)]) := by
  obtain ⟨hmade, hopen, ts, hts, hstorable⟩ := save_eq_ok_iff.mp ht
  obtain ⟨ts', hts', hafter⟩ := templates_save hform ht
  obtain rfl := Except.ok.inj (hts.symm.trans hts')
  refine ⟨?_, ?_, fun _ ↦ ?_, .inl ?_⟩
  · exact List.forall_mem_append.mpr ⟨h.made, List.forall_mem_singleton.mpr hmade⟩
  · exact List.forall_mem_append.mpr ⟨h.storable,
      List.forall_mem_singleton.mpr (hstorable t (by simp))⟩
  · exact hopen.imp fun _ hopens ↦ (confined_save _ _ form).writes.opens hopens
  · rw [hafter, List.map_append, h.eq_of_templates hts, map_settled_settled, List.map_append]
    rfl

/-- Deleting the id of a template that is kept succeeds: the others can be written without it. -/
theorem delete_ok (h : library.Holds storage kept) (hid : ∃ p ∈ kept, p.2.id = id) :
    (library.delete storage id).outcome = .ok () := by
  obtain ⟨p, hp, hid⟩ := hid
  have hopen := h.writable (List.ne_nil_of_mem hp)
  obtain ⟨fault, -, hts, -⟩ | ⟨ts, hts, hnone, -⟩ | ⟨ts, hts, -, hdelete⟩ :=
    library.delete_cases storage id
  · exact absurd ((h.templates_of_ne_nil (List.ne_nil_of_mem hp)).symm.trans hts) nofun
  · rw [h.eq_of_templates hts] at hnone
    exact absurd hid (hnone p.2.settled (List.mem_map_of_mem hp))
  · rw [hdelete]
    exact write_eq_ok_iff.mpr
      ⟨hopen, fun t ht ↦ h.storable_of_templates hts t (List.mem_of_mem_filter ht)⟩

/-- What is left after a deletion is listed. -/
theorem templates_delete (h : library.Holds storage kept)
    (hok : (library.delete storage id).outcome = .ok ()) :
    library.templates (library.delete storage id).storage
      = .ok ((kept.filter fun p ↦ p.2.id ≠ id).map fun p ↦ p.2.settled) := by
  obtain ⟨ts, hts, hafter⟩ := Library.templates_delete hok
  have hfilter : ((kept.map fun p ↦ p.2.settled).filter fun t ↦ t.id ≠ id)
      = (kept.filter fun p ↦ p.2.id ≠ id).map fun p ↦ p.2.settled := List.filter_map
  rw [hafter, h.eq_of_templates hts, hfilter, map_settled_settled]

theorem delete (h : library.Holds storage kept)
    (hok : (library.delete storage id).outcome = .ok ()) :
    library.Holds (library.delete storage id).storage (kept.filter fun p ↦ p.2.id ≠ id) := by
  refine ⟨fun p hp ↦ h.made p (List.mem_of_mem_filter hp),
    fun p hp ↦ h.storable p (List.mem_of_mem_filter hp), fun hne ↦ ?_,
    .inl (h.templates_delete hok)⟩
  have hkept : kept ≠ [] := by
    rintro rfl
    exact hne rfl
  exact (h.writable hkept).imp fun _ hopens ↦ (confined_delete _ _ id).writes.opens hopens

/-- Making the shared folder makes no difference to what is held. -/
theorem made_storage (h : library.Holds storage kept) : library.Holds storage.made kept where
  made := h.made
  storable := h.storable
  writable hne := (h.writable hne).imp fun _ hopens ↦
    (Storage.Writes.made : storage.Writes library.project _).opens hopens
  listed := by
    obtain hfind | ⟨-, hlong, hnone, hafter⟩ := storage.keeps_made library.project
    · rw [templates_congr hfind]
      exact h.listed
    · refine .inr ⟨?_, _, templates_of_find_eq_error hafter⟩
      -- a file whose name is too long is never opened
      by_contra hne
      obtain ⟨place, hopens⟩ := h.writable hne
      exact absurd (hopens.reach.symm.trans (Storage.find_eq_nameTooLong_iff.mp hlong)) nofun

/-- A deletion that fails changes no file. -/
theorem storage_of_delete (h : library.Holds storage kept)
    (herror : (library.delete storage id).outcome = .error fault) :
    (library.delete storage id).storage = storage := by
  obtain ⟨_, -, -, hdelete⟩ | ⟨_, -, -, hdelete⟩ | ⟨ts, hts, ⟨t, ht, hid⟩, -⟩ :=
    library.delete_cases storage id
  · rw [hdelete]
    rfl
  · rw [hdelete]
    rfl
  · rw [h.eq_of_templates hts] at ht
    obtain ⟨p, hp, rfl⟩ := List.mem_map.mp ht
    exact absurd ((h.delete_ok ⟨p, hp, hid⟩).symm.trans herror) nofun

theorem keep_save_of_encoded (hcause : ¬∃ cause, fault = .storage (.unencodable cause)) :
    (Call.save form).keep (.error fault) kept = kept := by
  rw [Call.keep.eq_def]
  split
  next heq => exact absurd heq nofun
  next cause _ heq => exact absurd ⟨cause, Except.error.inj heq⟩ hcause
  next heq _ => exact absurd heq nofun
  next => rfl

/-- **One call**: what is kept is held. -/
theorem answer {call : Call} (h : library.Holds storage kept)
    (hform : ∀ form, call = .save form → form.graph.AllFree Json.Distinct Json.DistinctFields) :
    library.Holds (library.answer storage call).storage
      (call.keep (library.answer storage call).outcome kept) := by
  rcases call with - | id | ⟨term, category⟩ | form | id
  · exact h
  · exact h
  · exact h
  · dsimp only [Library.answer]
    rcases houtcome : (library.save storage form).outcome with fault | t
    · by_cases hcause : ∃ cause, fault = .storage (.unencodable cause)
      · obtain ⟨cause, rfl⟩ := hcause
        exact ⟨nofun, nofun, fun hne ↦ absurd rfl hne,
          .inl (templates_of_save_unencodable houtcome)⟩
      · -- a save that fails otherwise changes no file
        have hsame := (library.confined_save storage form).failed fault houtcome fun cause hfault ↦
          absurd ⟨cause, hfault⟩ hcause
        rw [Except.map, keep_save_of_encoded hcause]
        obtain hsame | hmade := hsame
        · rw [hsame]
          exact h
        · rw [hmade]
          exact h.made_storage
    · exact h.save (hform form rfl) houtcome
  · dsimp only [Library.answer]
    rcases houtcome : (library.delete storage id).outcome with fault | ⟨⟩
    · rw [h.storage_of_delete houtcome]
      exact h
    · exact h.delete houtcome

/-- **A run**: what is kept at its end is held. -/
theorem run {calls : List Call} (h : library.Holds storage kept)
    (hforms : ∀ form, .save form ∈ calls → form.graph.AllFree Json.Distinct Json.DistinctFields) :
    library.Holds (library.after storage calls)
      ((library.entries storage calls).foldl (fun kept e ↦ e.1.keep e.2 kept) kept) := by
  induction calls generalizing storage kept with
  | nil => exact h
  | cons call calls ih =>
    have hcall : ∀ form, call = .save form →
        form.graph.AllFree Json.Distinct Json.DistinctFields := fun form hform ↦
      hforms form (hform ▸ List.mem_cons_self)
    exact ih (h.answer hcall) fun form hform ↦ hforms form (List.mem_cons_of_mem call hform)

end Holds

/-! ## One template by its id -/

variable {calls : List Call} {before rest : List (TemplateForm × Template)} {t : Template}

/-- **A kept template is known by its id** if no other one that is kept was saved in the same whole
millisecond. Looking up the id gives the template, which is written as the one that was saved, and
deleting the id takes out this template and no other. -/
theorem found_and_deleted (hmissing : storage.file? library.project = none)
    (hforms : ∀ form, .save form ∈ calls → form.graph.AllFree Json.Distinct Json.DistinctFields)
    (hkept : library.kept storage calls = before ++ (form, t) :: rest)
    (hclock : ∀ p ∈ before ++ rest, milliseconds p.1.now ≠ milliseconds form.now) :
    library.templates (library.after storage calls)
        = .ok ((before ++ (form, t) :: rest).map fun p ↦ p.2.settled) ∧
      library.get (library.after storage calls) t.id = .ok t.settled ∧
      (∀ s, t.settled.write s = t.write s) ∧
      (library.delete (library.after storage calls) t.id).outcome = .ok () ∧
      library.templates (library.delete (library.after storage calls) t.id).storage
        = .ok ((before ++ rest).map fun p ↦ p.2.settled) := by
  have hholds : library.Holds (library.after storage calls) (before ++ (form, t) :: rest) :=
    hkept ▸ (Holds.nil hmissing).run hforms
  have hmem : (form, t) ∈ before ++ (form, t) :: rest :=
    List.mem_append_right before List.mem_cons_self
  have hids : ∀ p ∈ before ++ rest, p.2.id ≠ t.id := by
    intro p hp hid
    have hp' : p ∈ before ++ (form, t) :: rest :=
      ((List.sublist_cons_self (form, t) rest).append_left before).mem hp
    exact hclock p hp ((TemplateForm.id_eq_iff (hholds.made p hp') (hholds.made _ hmem)).mp hid)
  have hlisted := hholds.templates_of_ne_nil (List.ne_nil_of_mem hmem)
  have hdelete := hholds.delete_ok ⟨(form, t), hmem, rfl⟩
  refine ⟨hlisted, ?_, t.write_settled, hdelete, ?_⟩
  · rw [List.map_append, List.map_cons] at hlisted
    refine get_eq_ok_iff.mpr ⟨_, _, hlisted, rfl, List.forall_mem_map.mpr fun p hp ↦ ?_⟩
    exact hids p (List.mem_append_left rest hp)
  · have hrest : ((before ++ (form, t) :: rest).filter fun p ↦ p.2.id ≠ t.id)
        = before ++ rest := by
      rw [List.filter_append, List.filter_cons_of_neg (by simp), ← List.filter_append,
        List.filter_eq_self]
      exact fun p hp ↦ decide_eq_true (hids p hp)
    rw [hholds.templates_delete hdelete, hrest]

/-! ## Two saves -/

/-- The form of the same workflow, saved under another name at another time. -/
def otherForm (now : Binary64) : TemplateForm :=
  { agentForm .null with name := some ("Other" : String), now := now }

/-- The template that the other form makes in a millisecond. -/
def otherTemplate (id : Text) : Template := { agentTemplate .null with id := id, name := "Other" }

/-- The two saves, in this order. -/
def twoSaves (now : Binary64) : List Call := [.save (agentForm .null), .save (otherForm now)]

theorem allFree_graph_agentForm (config : Json) (h : config.Distinct) :
    (agentForm config).graph.AllFree Json.Distinct Json.DistinctFields :=
  distinct_saveFirst h _ rfl

theorem distinct_twoSaves (now : Binary64) :
    ∀ form, .save form ∈ twoSaves now → form.graph.AllFree Json.Distinct Json.DistinctFields := by
  have hgraph : (agentForm .null).graph.AllFree Json.Distinct Json.DistinctFields :=
    allFree_graph_agentForm .null trivial
  intro form hform
  rcases List.mem_pair.mp hform with h | h
  · exact Call.save.inj h ▸ hgraph
  · exact Call.save.inj h ▸ hgraph

theorem storable_agentTemplate : (agentTemplate .null).Storable :=
  ⟨by decide, by decide, by decide +kernel⟩

theorem outcome_save_first {form : TemplateForm} {t : Template}
    (hmade : form.template = .ok t) (hstorable : t.Storable) :
    (firstLibrary.save .empty form).outcome = .ok t := by
  have hnil : firstLibrary.Holds .empty [] := Holds.nil rfl
  have hopens : ∃ place, Storage.empty.Opens firstLibrary.project place :=
    Storage.exists_opens_iff.mpr (by decide +kernel)
  have htemplates : firstLibrary.templates .empty = .ok [] := by decide +kernel
  exact hnil.save_ok hopens htemplates hmade hstorable

theorem outcome_save_agentForm :
    (firstLibrary.save .empty (agentForm .null)).outcome = .ok (agentTemplate .null) :=
  outcome_save_first (by decide +kernel) storable_agentTemplate

theorem holds_save_first {form : TemplateForm} {t : Template}
    (hform : form.graph.AllFree Json.Distinct Json.DistinctFields)
    (h : (firstLibrary.save .empty form).outcome = .ok t) :
    firstLibrary.Holds (firstLibrary.save .empty form).storage [(form, t)] := by
  have hnil : firstLibrary.Holds .empty [] := Holds.nil rfl
  exact hnil.save hform h

section TwoSaves

variable {now : Binary64} {id : Text} (hmade : (otherForm now).template = .ok (otherTemplate id))
  (hstorable : (otherTemplate id).Storable)

include hmade hstorable

theorem entries_twoSaves :
    firstLibrary.entries .empty (twoSaves now)
      = [(.save (agentForm .null), .ok (.saved (agentTemplate .null))),
        (.save (otherForm now), .ok (.saved (otherTemplate id)))] := by
  have hfirst := holds_save_first (allFree_graph_agentForm .null trivial) outcome_save_agentForm
  have hsecond := hfirst.save_ok (hfirst.writable nofun) (hfirst.templates_of_ne_nil nofun)
    hmade hstorable
  simp only [twoSaves, entries, Library.answer, outcome_save_agentForm, hsecond, Except.map]

theorem kept_twoSaves :
    firstLibrary.kept .empty (twoSaves now)
      = [] ++ (agentForm .null, agentTemplate .null) :: [(otherForm now, otherTemplate id)] := by
  rw [kept, entries_twoSaves hmade hstorable]
  rfl

theorem holds_twoSaves :
    firstLibrary.Holds (firstLibrary.after .empty (twoSaves now))
      [(agentForm .null, agentTemplate .null), (otherForm now, otherTemplate id)] := by
  have hnil : firstLibrary.Holds .empty [] := Holds.nil rfl
  have hholds := hnil.run (distinct_twoSaves now)
  rwa [← kept, kept_twoSaves hmade hstorable] at hholds

end TwoSaves

/-- A second later the id is another one. -/
theorem found_and_deleted_second_later :
    Storage.empty.file? firstLibrary.project = none ∧
    (∀ form, .save form ∈ twoSaves (.ofInt 2) →
      form.graph.AllFree Json.Distinct Json.DistinctFields) ∧
    firstLibrary.kept .empty (twoSaves (.ofInt 2))
      = [] ++ (agentForm .null, agentTemplate .null)
        :: [(otherForm (.ofInt 2), otherTemplate "saved-2000")] ∧
    milliseconds (otherForm (.ofInt 2)).now ≠ milliseconds (agentForm .null).now ∧
    firstLibrary.get (firstLibrary.after .empty (twoSaves (.ofInt 2))) "saved-1000"
      = .ok (agentTemplate .null).settled := by
  have hkept : firstLibrary.kept .empty (twoSaves (.ofInt 2))
      = [] ++ (agentForm .null, agentTemplate .null)
        :: [(otherForm (.ofInt 2), otherTemplate "saved-2000")] :=
    kept_twoSaves (by decide +kernel) ⟨by decide, by decide, by decide +kernel⟩
  have hclock : milliseconds (otherForm (.ofInt 2)).now ≠ milliseconds (agentForm .null).now := by
    decide +kernel
  exact ⟨rfl, distinct_twoSaves _, hkept, hclock,
    (found_and_deleted rfl (distinct_twoSaves _) hkept
      (List.forall_mem_singleton.mpr hclock)).2.1⟩

/-- Half a millisecond later the id is the same: it stands for the template that was saved first, and
deleting it takes out both. And a template with an infinity is found with null in its place. -/
theorem exists_unlike_by_id :
    (∃ now, (agentForm .null).now.lt now ∧
      firstLibrary.entries .empty (twoSaves now)
        = [(.save (agentForm .null), .ok (.saved (agentTemplate .null))),
          (.save (otherForm now), .ok (.saved (otherTemplate "saved-1000")))] ∧
      agentTemplate .null ≠ otherTemplate "saved-1000" ∧
      firstLibrary.get (firstLibrary.after .empty (twoSaves now)) (otherTemplate "saved-1000").id
        = .ok (agentTemplate .null) ∧
      firstLibrary.templates (firstLibrary.delete (firstLibrary.after .empty (twoSaves now))
        (otherTemplate "saved-1000").id).storage = .ok []) ∧
    ∃ form t, (firstLibrary.save .empty form).outcome = .ok t ∧
      firstLibrary.get (firstLibrary.save .empty form).storage t.id ≠ .ok t := by
  constructor
  · have hmade : (otherForm (.ofDecimal false 10005 (-4))).template
        = .ok (otherTemplate "saved-1000") := by
      decide +kernel
    have hstorable : (otherTemplate "saved-1000").Storable :=
      ⟨by decide, by decide, by decide +kernel⟩
    have hholds := holds_twoSaves hmade hstorable
    refine ⟨_, by decide +kernel, entries_twoSaves hmade hstorable, by decide, ?_, ?_⟩
    · exact get_eq_ok_iff.mpr ⟨[], _, hholds.templates_of_ne_nil nofun, rfl, nofun⟩
    · exact hholds.templates_delete (hholds.delete_ok ⟨_, List.mem_cons_self, rfl⟩)
  · -- the infinity is written as null, so nothing but the template itself has to be looked at
    have hstorable : (agentTemplate (.float (.infinity false))).Storable :=
      ⟨by decide, storable_agentTemplate.short, storable_agentTemplate.encodes⟩
    have hsave := outcome_save_first (by decide +kernel :
      (agentForm (.float (.infinity false))).template = .ok _) hstorable
    have hholds := holds_save_first (allFree_graph_agentForm (.float (.infinity false)) trivial) hsave
    have hget : firstLibrary.get
        (firstLibrary.save .empty (agentForm (.float (.infinity false)))).storage
        (agentTemplate (.float (.infinity false))).id
          = .ok (agentTemplate (.float (.infinity false))).settled :=
      get_eq_ok_iff.mpr ⟨[], _, hholds.templates_of_ne_nil nofun, rfl, nofun⟩
    refine ⟨_, _, hsave, ?_⟩
    rw [hget]
    decide

end Library

end AgentFlow
