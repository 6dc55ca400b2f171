import AgentFlow.Proofs.Exchange
import AgentFlow.Proofs.Json.Alphabet
import AgentFlow.Proofs.Payload.Distinct
import AgentFlow.Template.Library

/-!
# Files of templates

A file of templates is written only if the free values of its templates can be, and then it has far
fewer levels than are read. No carriage return is written, so the lines are read as they were
written, and the templates come back settled (`Template.ofFile_fileText`).

Whatever a file holds, the templates that it is read as repeat no key in their free values
(`Template.distinct_of_ofFile`), so they can be written and read again.
-/

namespace AgentFlow

/-! ## Lines -/

theorem joinLines_eq_self {s : Text} (h : ∀ c ∈ s, c ≠ .char '\r') : joinLines s = s := by
  fun_induction joinLines s with
  | case1 => rfl
  | case2 t ih => exact absurd rfl (h _ List.mem_cons_self)
  | case3 c t hne ih =>
    rw [if_neg (h c List.mem_cons_self), ih fun d hd ↦ h d (List.mem_cons_of_mem c hd)]

theorem FileContent.read_pretty (v : Json) : read (.text v.pretty) = .ok v.pretty :=
  congrArg Except.ok (joinLines_eq_self fun _ hc ↦ Json.ne_return_of_mem_write hc)

namespace Template

/-! ## Levels of templates -/

theorem within_write (s : Spelling) {t : Template} {n : Nat} (hn : 2 ≤ n)
    (h : t.AllFree (Json.Within n) (Fields.AllWithin n)) : (t.write s).Within (n + 6) := by
  apply Json.within_record (of_decide_eq_true rfl)
  simp only [List.forall_mem_cons]
  refine ⟨?_, ?_, ?_, ?_, ?_, ?_, ?_, ?_, ?_, ?_, ?_, nofun⟩
  · exact (within_text _).mono (by omega)
  · exact (within_text _).mono (by omega)
  · exact (within_text _).mono (by omega)
  · exact (within_text _).mono (by omega)
  · exact Json.within_ofList fun node hnode ↦ node.within_write s (h.1 node hnode)
  · exact (Json.within_ofList fun e he ↦ e.within_write s hn (h.2 e he)).mono (by omega)
  · exact (within_text _).mono (by omega)
  · exact (within_optional_text _).mono (by omega)
  · exact (within_text _).mono (by omega)
  · exact (within_text _).mono (by omega)
  · exact (Json.within_ofList fun tag _ ↦ within_text tag).mono (by omega)

theorem within_file {ts : List Template}
    (h : ∀ t ∈ ts, t.AllFree Json.Distinct Json.DistinctFields)
    (hfault : ts.findSome? writeFault? = none) :
    (Json.ofList (write .wire) ts).Within (freeHeight + 7) := by
  refine Json.within_ofList fun t ht ↦ within_write .wire (by decide) ?_
  exact Graph.allFree_within (g := ⟨t.nodes, t.edges⟩) (h t ht)
    (List.findSome?_eq_none_iff.mp hfault t ht)

/-! ## Reading -/

variable {ts : List Template} {content : FileContent} {s : Text}

/-- **The templates of a file that was written** are read back with their free values as they are
written. -/
theorem ofFile_fileText (h : ∀ t ∈ ts, t.AllFree Json.Distinct Json.DistinctFields)
    (hs : fileText ts = .ok s) : ofFile (.text s) = .ok (some (ts.map settled)) := by
  obtain ⟨⟨hfault, hshort⟩, rfl⟩ := fileText_eq_ok_iff.mp hs
  obtain ⟨hdistinct, hheight⟩ := within_file h hfault
  have hparse := Json.parse_pretty hdistinct (hheight.trans (by decide)) hshort
  have hitems : Reading.each read (ts.map (write .wire)) = .ok (ts.map settled) :=
    Reading.each_eq_ok fun t _ ↦ t.value?_read_write .wire
  rw [ofFile, FileContent.read_pretty]
  dsimp only
  rw [hparse]
  dsimp only [Json.ofList]
  rw [hitems]
  rfl

/-- The templates of a file repeat no key in their free values. -/
theorem distinct_of_ofFile (h : ofFile content = .ok (some ts)) :
    ∀ t ∈ ts, t.AllFree Json.Distinct Json.DistinctFields := by
  rw [ofFile] at h
  split at h
  next => exact absurd (Except.ok.inj h) nofun
  next s _ =>
    split at h
    next items hparse =>
      cases heach : Reading.each read items with
      | error faults =>
        rw [heach] at h
        exact absurd (Except.ok.inj h) nofun
      | ok us =>
        rw [heach] at h
        -- what was parsed repeats no key, so nothing that is read from it does
        obtain rfl := Option.some.inj (Except.ok.inj h)
        exact Reading.Gives.each distinct_of_read (Json.parse_distinct hparse) heach
    next => exact absurd h nofun
    next => exact absurd (Except.ok.inj h) nofun

end Template

end AgentFlow
