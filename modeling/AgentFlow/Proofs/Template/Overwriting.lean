import AgentFlow.Proofs.Template.Run

/-!
# Saving over a file

A file that holds a list counts as a list of templates only if each of its elements is one; a single
element that is none makes the whole file count as empty. Saving writes the file whole from what is
listed. So it keeps all elements of a list of templates, and of any other list it keeps none
(`Library.templates_save_over`): the elements that are templates by themselves are lost with the
others.

Deleting from such a file is refused and leaves it as it is
(`Library.delete_refused_of_holdsList`).
-/

namespace AgentFlow

/-- Whether a file holds a list of these elements. -/
def FileContent.HoldsList (content : FileContent) (items : List Json) : Prop :=
  ∃ s, content.read = .ok s ∧ Json.parse .outside s = .ok (.array items)

/-- Whether a value is read as a template by itself. -/
def Template.Reads (v : Json) (t : Template) : Prop := (Template.read v).result = .ok t

theorem Template.ofFile_holdsList {content : FileContent} {items : List Json}
    (h : content.HoldsList items) :
    ofFile content = .ok (Reading.each read items).toOption := by
  obtain ⟨s, hread, hparse⟩ := h
  rw [ofFile, hread]
  dsimp only
  rw [hparse]

namespace Library

variable {library : Library} {storage : Storage} {content : FileContent} {items : List Json}
  {form : TemplateForm} {t : Template}

section HoldsList

variable (hfile : storage.file? library.project = some content) (hlist : content.HoldsList items)

include hfile hlist

theorem templates_of_holdsList :
    library.templates storage = .ok ((Reading.each Template.read items).toOption.getD []) := by
  rw [templates, listing, Storage.find_of_file?_eq_some hfile]
  dsimp only
  rw [Template.ofFile_holdsList hlist]
  rfl

/-- A list of templates is listed. -/
theorem templates_of_reads {ts : List Template} (hts : List.Forall₂ Template.Reads items ts) :
    library.templates storage = .ok ts := by
  rw [templates_of_holdsList hfile hlist, Reading.each_eq_ok_iff.mpr hts]
  rfl

/-- Of a list with an element that is no template, nothing is listed. -/
theorem templates_eq_nil (hother : ∃ v ∈ items, ∀ u, ¬Template.Reads v u) :
    library.templates storage = .ok [] := by
  rw [templates_of_holdsList hfile hlist]
  cases heach : Reading.each Template.read items with
  | error faults => rfl
  | ok ts =>
    obtain ⟨v, hv, hnone⟩ := hother
    obtain ⟨u, hu⟩ := exists_forall₂_iff.mp ⟨ts, Reading.each_eq_ok_iff.mp heach⟩ v hv
    exact absurd hu (hnone u)

/-- Deleting from such a list is refused, whatever the id, and leaves the file as it is. -/
theorem delete_refused_of_holdsList (hother : ∃ v ∈ items, ∀ u, ¬Template.Reads v u) (id : Text) :
    library.delete storage id = .refused storage (.refused (.notFound id)) := by
  have hnil := templates_eq_nil hfile hlist hother
  obtain ⟨fault, -, herror, -⟩ | ⟨ts, -, -, hdelete⟩ | ⟨ts, hts, ⟨t, ht, -⟩, -⟩ :=
    library.delete_cases storage id
  · exact absurd (hnil.symm.trans herror) nofun
  · exact hdelete
  · obtain rfl := Except.ok.inj (hnil.symm.trans hts)
    exact absurd ht List.not_mem_nil

end HoldsList

/-- **What saving keeps of a list**: all of it if every element is a template by itself, and nothing
if some element is not. -/
theorem templates_save_over (hform : form.graph.AllFree Json.Distinct Json.DistinctFields)
    (hfile : storage.file? library.project = some content) (hlist : content.HoldsList items)
    (hsave : (library.save storage form).outcome = .ok t) :
    ((∀ v ∈ items, ∃ u, Template.Reads v u) → ∃ ts, List.Forall₂ Template.Reads items ts ∧
      library.templates (library.save storage form).storage
        = .ok ((ts ++ [t]).map Template.settled)) ∧
    ((∃ v ∈ items, ∀ u, ¬Template.Reads v u) →
      library.templates (library.save storage form).storage = .ok [t.settled]) := by
  obtain ⟨us, hus, hafter⟩ := templates_save hform hsave
  rw [hafter]
  constructor
  · intro hall
    obtain ⟨ts, hts⟩ := exists_forall₂_iff.mpr hall
    obtain rfl := Except.ok.inj ((templates_of_reads hfile hlist hts).symm.trans hus)
    exact ⟨ts, hts, rfl⟩
  · intro hother
    obtain rfl := Except.ok.inj ((templates_eq_nil hfile hlist hother).symm.trans hus)
    rfl

/-! ## A list with a number -/

/-- A template with nothing but an id and a name. -/
def bareTemplate : Json := .object [("id", .string "kept"), ("name", .string "Kept")]

/-- A file of templates with a number among them. -/
def mixedFile : FileContent := .text (Json.array [bareTemplate, .int 5]).pretty

/-- The files of a project with that file. -/
def mixedStorage : Storage := (Storage.empty.write firstLibrary.project mixedFile).storage

theorem holdsList_mixedFile : mixedFile.HoldsList [bareTemplate, .int 5] := by
  have hdistinct : (Json.array [bareTemplate, .int 5]).Distinct := by
    simp [bareTemplate, Json.Distinct, Json.DistinctItems, Json.DistinctFields]
  exact ⟨_, FileContent.read_pretty _, Json.parse_pretty hdistinct (by decide) (by decide +kernel)⟩

theorem file?_mixedStorage : mixedStorage.file? firstLibrary.project = some mixedFile := by
  obtain ⟨place, hopens⟩ : ∃ place, Storage.empty.Opens firstLibrary.project place :=
    Storage.exists_opens_iff.mpr (by decide +kernel)
  have hwrite : mixedStorage = Storage.empty.made.put place mixedFile :=
    congrArg Change.storage (hopens.write_text (by decide +kernel))
  rw [hwrite, Storage.file?, hopens.find_put]

theorem allFree_agentForm :
    (agentForm .null).graph.AllFree Json.Distinct Json.DistinctFields := by
  have hdistinct : (saveFirst .null).Distinct := distinct_saveFirst trivial
  exact hdistinct _ rfl

theorem outcome_save_mixedStorage :
    (firstLibrary.save mixedStorage (agentForm .null)).outcome = .ok (agentTemplate .null) := by
  decide +kernel

theorem templates_save_over_mixedFile :
    (agentForm .null).graph.AllFree Json.Distinct Json.DistinctFields ∧
    mixedStorage.file? firstLibrary.project = some mixedFile ∧
    mixedFile.HoldsList [bareTemplate, .int 5] ∧
    (firstLibrary.save mixedStorage (agentForm .null)).outcome = .ok (agentTemplate .null) ∧
    firstLibrary.templates (firstLibrary.save mixedStorage (agentForm .null)).storage
      = .ok [(agentTemplate .null).settled] := by
  have hfile := file?_mixedStorage
  refine ⟨allFree_agentForm, hfile, holdsList_mixedFile, outcome_save_mixedStorage, ?_⟩
  obtain ⟨-, hlost⟩ := templates_save_over allFree_agentForm hfile holdsList_mixedFile
    outcome_save_mixedStorage
  exact hlost ⟨.int 5, by simp, nofun⟩

/-- A template of a list is not listed any more once another one is saved. -/
theorem exists_template_lost :
    ∃ items v u ts, mixedFile.HoldsList items ∧ v ∈ items ∧ Template.Reads v u ∧
      (firstLibrary.save mixedStorage (agentForm .null)).outcome = .ok (agentTemplate .null) ∧
      firstLibrary.templates (firstLibrary.save mixedStorage (agentForm .null)).storage = .ok ts ∧
      ∀ w ∈ ts, w.id ≠ u.id := by
  have hread : ∃ u, Template.Reads bareTemplate u ∧ u.id = "kept" := ⟨_, rfl, rfl⟩
  obtain ⟨u, hu, hid⟩ := hread
  have hnil : firstLibrary.templates mixedStorage = .ok [] :=
    templates_eq_nil file?_mixedStorage holdsList_mixedFile ⟨.int 5, by simp, nofun⟩
  obtain ⟨ts, hts, hafter⟩ := templates_save allFree_agentForm outcome_save_mixedStorage
  obtain rfl := Except.ok.inj (hnil.symm.trans hts)
  refine ⟨_, bareTemplate, u, _, holdsList_mixedFile, List.mem_cons_self, hu,
    outcome_save_mixedStorage, hafter, ?_⟩
  rw [hid]
  decide +kernel

end Library

end AgentFlow
