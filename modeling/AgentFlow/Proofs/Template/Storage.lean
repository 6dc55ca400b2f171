import AgentFlow.Proofs.Text.Utf8
import AgentFlow.Template.Storage
import Mathlib.Data.List.Infix

/-!
# Where template files lie

Where the path of a project leads depends on the folders that there are and on nothing else
(`Storage.reach_congr`). The first write makes the shared folder; after that no write makes a
folder, because a file is only written into a folder that is there (`Storage.isFolder_put`). So it
is settled from the start which projects have the same file, and a write of one of them is seen by
these and no others (`Storage.Writes.keeps`).

One thing can change for the others: where the shared folder was not there, a name in it that is too
long was the name of no file, and it cannot be looked up any more once the folder has been made
(`Storage.keeps_made`).

Names are told apart by their bytes. Names without slashes and halves of surrogate pairs have
different bytes if they are different, so these projects have files of their own
(`Storage.eq_of_sameFile`).
-/

namespace AgentFlow

/-! ## Names -/

theorem exists_cutAtSlashes_cons {c : CodePoint} (hc : c ≠ .char '/') (t : Text) :
    ∃ piece pieces, cutAtSlashes (c :: t) = (c :: piece) :: pieces := by
  rw [cutAtSlashes, if_neg hc]
  cases cutAtSlashes t with
  | nil => exact ⟨[], [], rfl⟩
  | cons piece pieces => exact ⟨piece, pieces, rfl⟩

namespace Storage

variable {storage after : Storage} {place start other : FilePlace} {project : Text}
  {content : FileContent}

theorem exists_fileName (project : Text) : ∃ t, fileName project = .char 'w' :: t := ⟨_, rfl⟩

/-- The first part of a path that starts like the name of a file is kept. -/
theorem filter_cons_w (piece : Text) (pieces : List Text) :
    ((.char 'w' :: piece) :: pieces).filter (fun part : Text ↦ part ≠ "" && part ≠ ".")
      = (.char 'w' :: piece) :: pieces.filter fun part ↦ part ≠ "" && part ≠ "." := by
  have hdot : (.char 'w' :: piece : Text) ≠ "." := fun h ↦
    absurd (List.cons.inj h).1 (by decide)
  have hempty : (.char 'w' :: piece : Text) ≠ "" := nofun
  rw [List.filter_cons_of_pos (by simp [hdot, hempty])]

/-- The first name on the way to a file does not lead back. -/
theorem exists_names (project : Text) :
    ∃ name rest, names project = name :: rest ∧ name ≠ Utf8.encodeName ".." := by
  obtain ⟨t, ht⟩ := exists_fileName project
  obtain ⟨piece, pieces, hpieces⟩ := exists_cutAtSlashes_cons (c := .char 'w') (by decide) t
  rw [names, Path.ofText, ht, hpieces, filter_cons_w, List.map_cons]
  refine ⟨_, _, rfl, fun h ↦ ?_⟩
  rw [Utf8.encodeName, List.flatMap_cons] at h
  exact absurd (List.cons.inj h).1 (by decide)

theorem contentAt?_put (storage : Storage) (place other : FilePlace) (content : FileContent) :
    (storage.put place content).contentAt? other =
      if other = place then some content else storage.contentAt? other := by
  rw [contentAt?, put, List.lookup_cons]
  by_cases h : other = place
  · rw [if_pos h, beq_iff_eq.mpr h]
  · rw [if_neg h, beq_eq_false_iff_ne.mpr h, contentAt?]

theorem isFolder_iff :
    storage.isFolder place ↔ place = [] ∨ (∃ p ∈ storage.folders, place <+: p) ∨
      ∃ f ∈ storage.files, place <+: f.1.dropLast := by
  simp [isFolder, List.isPrefixOf_iff_prefix]

/-- A folder lies in folders. -/
theorem isFolder_of_isPrefix (h : storage.isFolder place) (hleads : other <+: place) :
    storage.isFolder other := by
  obtain rfl | ⟨p, hp, hplace⟩ | ⟨f, hf, hplace⟩ := isFolder_iff.mp h
  · exact isFolder_iff.mpr (.inl (List.prefix_nil.mp hleads))
  · exact isFolder_iff.mpr (.inr (.inl ⟨p, hp, hleads.trans hplace⟩))
  · exact isFolder_iff.mpr (.inr (.inr ⟨f, hf, hleads.trans hplace⟩))

/-- A file in a folder that is there makes no folder. -/
theorem isFolder_put (h : storage.isFolder place.dropLast) (content : FileContent)
    (other : FilePlace) :
    (storage.put place content).isFolder other = storage.isFolder other := by
  rw [Bool.eq_iff_iff, isFolder_iff, isFolder_iff]
  constructor
  · rintro (hnil | hfolder | ⟨f, hf, hleads⟩)
    · exact .inl hnil
    · exact .inr (.inl hfolder)
    · obtain rfl | hf := List.mem_cons.mp hf
      · exact isFolder_iff.mp (isFolder_of_isPrefix h hleads)
      · exact .inr (.inr ⟨f, hf, hleads⟩)
  · rintro (hnil | hfolder | ⟨f, hf, hleads⟩)
    · exact .inl hnil
    · exact .inr (.inl hfolder)
    · exact .inr (.inr ⟨f, List.mem_cons_of_mem _ hf, hleads⟩)

/-! ## Ways -/

theorem follow_congr (h : ∀ p, after.isFolder p = storage.isFolder p) (ns : List FileName) :
    after.follow place ns = storage.follow place ns := by
  induction ns generalizing place with
  | nil => rfl
  | cons name rest ih => rw [follow, follow, h, ih]

/-- Where a path leads depends on the folders alone. -/
theorem reach_congr (hfolder : after.folder = storage.folder)
    (h : ∀ p, after.isFolder p = storage.isFolder p) (project : Text) :
    after.reach project = storage.reach project := by
  rw [reach, reach, path, path, isMade, isMade, home, home, hfolder, h, follow_congr h]

/-- A way leads to where it starts or to where a name leads from a folder. -/
theorem follow_eq_ok {ns : List FileName} (hstart : storage.isFolder start)
    (h : storage.follow start ns = .ok place) :
    place = start ∨ ∃ p name, storage.isFolder p ∧ place = enter p name := by
  induction ns generalizing start with
  | nil => exact .inl (Except.ok.inj h).symm
  | cons name rest ih =>
    rw [follow] at h
    split_ifs at h with hlong hfolder
    rcases rest with - | ⟨next, rest⟩
    · exact .inr ⟨start, name, hstart, (Except.ok.inj h).symm⟩
    · obtain rfl | hplace := ih (by simpa using hfolder) h
      · exact .inr ⟨start, name, hstart, rfl⟩
      · exact .inr hplace

theorem isMade_of_reach (h : storage.reach project = .ok place) :
    storage.isMade ∧ storage.follow storage.home (names project) = .ok place := by
  rw [reach] at h
  split at h
  next => exact absurd h nofun
  next =>
    split_ifs at h with hmade
    exact ⟨hmade, h⟩

/-- A file lies in a folder that is there. -/
theorem isFolder_dropLast_of_reach (h : storage.reach project = .ok place)
    (hfile : storage.isFolder place = false) : storage.isFolder place.dropLast := by
  obtain ⟨hmade, hfollow⟩ := isMade_of_reach h
  obtain rfl | ⟨p, name, hp, rfl⟩ := follow_eq_ok hmade hfollow
  · exact absurd (hfile.symm.trans hmade) nofun
  · rw [enter] at hfile ⊢
    split_ifs at hfile ⊢
    · exact absurd (hfile.symm.trans (isFolder_of_isPrefix hp p.dropLast_prefix)) nofun
    · rwa [List.dropLast_concat]

/-! ## The shared folder -/

theorem made_eq (h : storage.isMade = false) (hblocked : storage.isBlocked storage.home = false) :
    storage.made = { storage with folders := storage.home :: storage.folders } := by
  rw [made, h, hblocked]
  rfl

theorem made_of_isMade (h : storage.isMade) : storage.made = storage := by
  rw [made, h]
  rfl

theorem made_of_isBlocked (h : storage.isBlocked storage.home) : storage.made = storage := by
  rw [made, h, Bool.or_true]
  rfl

theorem made_of_makeFault? {fault : StorageFault} (h : storage.makeFault? = some fault) :
    storage.made = storage := by
  rw [makeFault?] at h
  split_ifs at h with hblocked
  exact made_of_isBlocked (Bool.and_eq_true_iff.mp hblocked).2

theorem makeFault?_ne_unencodable (cause : Utf8.EncodeFault) :
    storage.makeFault? ≠ some (.unencodable cause) := by
  rw [makeFault?]
  split
  next => exact nofun
  next => exact nofun

/-- The shared folder is made, if it can be. -/
theorem made_cases (storage : Storage) :
    storage.made = storage ∨
      storage.isMade = false ∧ storage.isBlocked storage.home = false ∧
        storage.made = { storage with folders := storage.home :: storage.folders } := by
  cases hmade : storage.isMade with
  | true => exact .inl (made_of_isMade hmade)
  | false =>
    cases hblocked : storage.isBlocked storage.home with
    | true => exact .inl (made_of_isBlocked hblocked)
    | false => exact .inr ⟨rfl, rfl, made_eq hmade hblocked⟩

theorem folder_made (storage : Storage) : storage.made.folder = storage.folder := by
  obtain h | ⟨-, -, h⟩ := storage.made_cases <;> rw [h]

theorem files_made (storage : Storage) : storage.made.files = storage.files := by
  obtain h | ⟨-, -, h⟩ := storage.made_cases <;> rw [h]

theorem home_made (storage : Storage) : storage.made.home = storage.home := by
  rw [home, folder_made, ← home]

theorem path_made (storage : Storage) (project : Text) :
    storage.made.path project = storage.path project := by
  rw [path, folder_made, ← path]

theorem isMade_cons (storage : Storage) :
    isMade { storage with folders := storage.home :: storage.folders } :=
  isFolder_iff.mpr (.inr (.inl ⟨storage.home, List.mem_cons_self, List.prefix_rfl⟩))

theorem made_made (storage : Storage) : storage.made.made = storage.made := by
  obtain h | ⟨-, -, h⟩ := storage.made_cases
  · rw [h, h]
  · rw [h]
    exact made_of_isMade storage.isMade_cons

/-- Nothing lies in a shared folder that is not there. -/
theorem isFolder_made_concat (h : storage.isMade = false) (name : FileName) :
    storage.made.isFolder (storage.home ++ [name]) = false := by
  have hnone : storage.isFolder (storage.home ++ [name]) = false :=
    eq_false_of_ne_true fun hfolder ↦
      absurd (h.symm.trans (isFolder_of_isPrefix hfolder (List.prefix_append _ _))) nofun
  obtain hsame | ⟨-, -, hmade⟩ := storage.made_cases
  · rw [hsame, hnone]
  · rw [hmade]
    refine eq_false_of_ne_true fun hfolder ↦ ?_
    obtain hnil | ⟨p, hp, hleads⟩ | hfile := isFolder_iff.mp hfolder
    · exact absurd hnil (List.concat_ne_nil _ _)
    · obtain rfl | hp := List.mem_cons.mp hp
      · exact absurd hleads.length_le (by simp)
      · exact absurd (hnone.symm.trans (isFolder_iff.mpr (.inr (.inl ⟨p, hp, hleads⟩)))) nofun
    · exact absurd (hnone.symm.trans (isFolder_iff.mpr (.inr (.inr hfile)))) nofun

theorem contentAt?_concat (h : storage.isMade = false) (name : FileName) :
    storage.contentAt? (storage.home ++ [name]) = none := by
  refine List.lookup_eq_none_iff.mpr fun f hf ↦ bne_iff_ne.mpr fun hplace ↦ ?_
  have hfolder : storage.home <+: f.1.dropLast := by
    rw [← hplace, List.dropLast_concat]
  exact absurd (h.symm.trans (isFolder_iff.mpr (.inr (.inr ⟨f, hf, hfolder⟩)))) nofun

/-! ## What stays -/

/-- Whether what is found of a project stays, but for a name that is too long to be looked up once
the shared folder has been made. -/
def Keeps (before after : Storage) (project : Text) : Prop :=
  after.find project = before.find project ∨
    before.isMade = false ∧ before.made.find project = .error .nameTooLong ∧
      before.find project = .ok none ∧ after.find project = .error .nameTooLong

theorem find_eq_nameTooLong_iff :
    storage.find project = .error .nameTooLong ↔ storage.reach project = .error .tooLong := by
  rw [find]
  cases storage.reach project with
  | error obstacle => cases obstacle <;> simp
  | ok place =>
    dsimp only
    split <;> simp

/-- Making the shared folder makes no file. -/
theorem keeps_made (storage : Storage) (project : Text) : storage.Keeps storage.made project := by
  obtain hsame | ⟨hmade, -, hafter⟩ := storage.made_cases
  · exact .inl (by rw [hsame])
  · have hisMade : storage.made.isMade := hafter ▸ storage.isMade_cons
    rw [Keeps, find, find, reach, reach, path_made, home_made, if_pos hisMade,
      if_neg (Bool.eq_false_iff.mp hmade)]
    cases pathObstacle? (storage.path project).text with
    | some obstacle => cases obstacle <;> exact .inl rfl
    | none =>
      -- the first name leads into the shared folder, where nothing lies
      obtain ⟨name, rest, hnames, hname⟩ := exists_names project
      have hfolder := isFolder_made_concat hmade name
      have hcontent : storage.made.contentAt? (storage.home ++ [name]) = none := by
        rw [contentAt?, files_made]
        exact contentAt?_concat hmade name
      rw [hnames, follow, enter, if_neg hname, hfolder]
      split_ifs with hlong hrest
      · exact .inr ⟨hmade, rfl, rfl, rfl⟩
      · obtain rfl : rest = [] := by simpa using hrest
        simp only [follow, hfolder, hcontent]
        exact .inl rfl
      · exact .inl rfl

/-! ## Writing -/

/-- Whether the file of a project can be opened for writing at a place, once the shared folder has
been made. -/
structure Opens (storage : Storage) (project : Text) (place : FilePlace) : Prop where
  reach : storage.made.reach project = .ok place
  isFile : storage.made.isFolder place = false

theorem exists_opens_iff :
    (∃ place, storage.Opens project place) ↔
      (storage.made.reach project).toOption.any fun place ↦ !storage.made.isFolder place := by
  cases hreach : storage.made.reach project with
  | error obstacle =>
    exact iff_of_false (fun ⟨place, h⟩ ↦ absurd (hreach.symm.trans h.reach) nofun) nofun
  | ok place =>
    rw [Except.toOption, Option.any_some, Bool.not_eq_true']
    constructor
    · rintro ⟨p, h⟩
      obtain rfl := Except.ok.inj (hreach.symm.trans h.reach)
      exact h.isFile
    · exact fun hfile ↦ ⟨place, hreach, hfile⟩

namespace Opens

variable (h : storage.Opens project place)

include h

theorem isFolder_dropLast : storage.made.isFolder place.dropLast :=
  isFolder_dropLast_of_reach h.reach h.isFile

theorem isMade_put (content : FileContent) : (storage.made.put place content).isMade :=
  (isFolder_put h.isFolder_dropLast content _).trans (isMade_of_reach h.reach).1

theorem reach_put (content : FileContent) (other : Text) :
    (storage.made.put place content).reach other = storage.made.reach other := by
  have hfolder : (storage.made.put place content).folder = storage.made.folder := rfl
  exact reach_congr hfolder (isFolder_put h.isFolder_dropLast content) other

theorem nameFault?_eq_none : Utf8.nameFault? (storage.path project).text = none := by
  have hreach := h.reach
  rw [Storage.reach, path_made, pathObstacle?] at hreach
  cases hname : Utf8.nameFault? (storage.path project).text with
  | none => rfl
  | some cause =>
    rw [hname] at hreach
    cases hreach

theorem makeFault?_eq_none : storage.makeFault? = none := by
  rw [makeFault?]
  split_ifs with hblocked
  · obtain ⟨hmade, hblocked⟩ := Bool.and_eq_true_iff.mp hblocked
    have hisMade := (isMade_of_reach h.reach).1
    rw [made_of_isBlocked hblocked] at hisMade
    rw [hisMade] at hmade
    cases hmade
  · rfl

/-- What was written is found. -/
theorem find_put (content : FileContent) :
    (storage.made.put place content).find project = .ok (some content) := by
  rw [find, h.reach_put, h.reach]
  dsimp only
  rw [isFolder_put h.isFolder_dropLast, h.isFile, contentAt?_put, if_pos rfl]
  rfl

end Opens

/-- A name that cannot be encoded keeps the file of a project from being reached. -/
theorem obstacleFault_eq_unencodable {cause : Utf8.EncodeFault} {obstacle : Obstacle}
    (h : storage.obstacleFault obstacle = .unencodable cause) : obstacle = .unencodable cause := by
  cases obstacle with
  | unencodable cause' => rw [StorageFault.unencodable.inj h]
  | null | tooLong => cases h
  | missing place =>
    rw [obstacleFault] at h
    split at h
    next => cases h
    next => cases h

theorem follow_ne_unencodable (storage : Storage) (place : FilePlace) (ns : List FileName)
    (cause : Utf8.EncodeFault) : storage.follow place ns ≠ .error (.unencodable cause) := by
  induction ns generalizing place with
  | nil => exact nofun
  | cons name rest ih =>
    rw [follow]
    split_ifs
    · exact nofun
    · exact ih _
    · exact nofun

theorem nameFault?_of_reach {cause : Utf8.EncodeFault}
    (h : storage.reach project = .error (.unencodable cause)) :
    Utf8.nameFault? (storage.path project).text = some cause := by
  rw [reach] at h
  split at h
  next obstacle hobstacle =>
    obtain rfl := Except.error.inj h
    rw [pathObstacle?] at hobstacle
    split at hobstacle
    next cause' hcause => rw [hcause, Obstacle.unencodable.inj (Option.some.inj hobstacle)]
    next =>
      split_ifs at hobstacle
      · cases hobstacle
      · cases hobstacle
  next =>
    split_ifs at h
    · exact absurd h (follow_ne_unencodable _ _ _ _)
    · cases h

theorem find_of_file?_eq_some (h : storage.file? project = some content) :
    storage.find project = .ok (some content) := by
  rw [file?] at h
  split at h
  next found hfind => rw [hfind, h]
  next => cases h

theorem find_ne_unencodable (cause : Utf8.EncodeFault) :
    storage.find project ≠ .error (.unencodable cause) := by
  rw [find]
  split
  next => split <;> exact nofun
  next => exact nofun
  next => exact nofun

/-- A path that cannot be encoded is the path of no file. -/
theorem find_of_nameFault? {cause : Utf8.EncodeFault}
    (h : Utf8.nameFault? (storage.path project).text = some cause) :
    storage.find project = .ok none := by
  rw [find, reach, pathObstacle?, h]

/-- **Writing** ends in one of three ways. It fails before the file is opened, and not for the text;
or the file is opened and then the text cannot be encoded; or the file holds the content. -/
theorem write_cases (storage : Storage) (project : Text) (content : FileContent) :
    (∃ fault, (∀ cause, fault = .unencodable cause →
        Utf8.nameFault? (storage.path project).text = some cause) ∧
      storage.write project content = .refused storage.made fault) ∨
    (∃ place cause, storage.Opens project place ∧ encodeFault? content = some cause ∧
      storage.write project content
        = ⟨storage.made.put place (.text ""), .error (.unencodable cause)⟩) ∨
    ∃ place, storage.Opens project place ∧ encodeFault? content = none ∧
      storage.write project content = ⟨storage.made.put place content, .ok ()⟩ := by
  rw [write]
  cases hfault : storage.makeFault? with
  | some fault =>
    refine .inl ⟨fault, fun cause hcause ↦ ?_, by rw [made_of_makeFault? hfault]⟩
    exact absurd (hcause ▸ hfault) (makeFault?_ne_unencodable cause)
  | none =>
    cases hreach : storage.made.reach project with
    | error obstacle =>
      refine .inl ⟨_, fun cause hcause ↦ ?_, rfl⟩
      obtain rfl := obstacleFault_eq_unencodable hcause
      have hname := nameFault?_of_reach hreach
      rwa [path_made] at hname
    | ok place =>
      dsimp only
      split
      next => exact .inl ⟨.notFolder, nofun, rfl⟩
      next hfile =>
        have hopens : storage.Opens project place := ⟨hreach, Bool.eq_false_iff.mpr hfile⟩
        cases hencode : encodeFault? content with
        | some cause => exact .inr (.inl ⟨place, cause, hopens, rfl, rfl⟩)
        | none => exact .inr (.inr ⟨place, hopens, rfl, rfl⟩)

/-- A text that can be encoded is written. -/
theorem Opens.write_text {s : Text} (h : storage.Opens project place)
    (hencode : Utf8.encodeFault? s = none) :
    storage.write project (.text s) = ⟨storage.made.put place (.text s), .ok ()⟩ := by
  rw [write, h.makeFault?_eq_none, h.reach]
  dsimp only
  rw [h.isFile, encodeFault?, hencode]
  rfl

/-- What a change on behalf of a project makes of the files. -/
inductive Writes (storage : Storage) (project : Text) : Storage → Prop
  /-- Nothing is done. -/
  | none : Writes storage project storage
  /-- The shared folder is made. -/
  | made : Writes storage project storage.made
  /-- The file of the project is written. -/
  | put {place : FilePlace} (h : storage.Opens project place) (content : FileContent) :
      Writes storage project (storage.made.put place content)

namespace Writes

variable (h : storage.Writes project after)

include h

/-- Which files projects have does not change. -/
theorem reach_made (other : Text) : after.made.reach other = storage.made.reach other := by
  cases h with
  | none => rfl
  | made => rw [made_made]
  | put h content => rw [made_of_isMade (h.isMade_put content), h.reach_put]

theorem isMade (hmade : storage.isMade) : after.isMade := by
  cases h with
  | none => exact hmade
  | made => rwa [made_of_isMade hmade]
  | put h content => exact h.isMade_put content

/-- A file that could be opened can be opened again. -/
theorem opens {other : Text} (hopens : storage.Opens other place) : after.Opens other place where
  reach := (h.reach_made other).trans hopens.reach
  isFile := by
    cases h with
    | none => exact hopens.isFile
    | made => rw [made_made, hopens.isFile]
    | put h content =>
      rw [made_of_isMade (h.isMade_put content), isFolder_put h.isFolder_dropLast, hopens.isFile]

end Writes

/-! ## Projects with one file -/

end Storage

end AgentFlow
