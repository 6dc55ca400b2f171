import AgentFlow.Proofs.Digest.Sha256
import AgentFlow.Proofs.Run.Loading

/-!
# Restoring what was stored

A snapshot is stored as the text of a value without infinite numbers. That text is read back as the
value, and the value as the snapshot it was written from, save for two things: free values come back
as they are written, and a timeout that is infinite or NaN is lost (`Snapshot.stored`). The first
does not show in what the runtime is given, the second does. So the fingerprint that a snapshot
carries is that of its restored schedule if all of its timeouts are finite
(`Graph.restore_snapshot`).
-/

namespace AgentFlow

/-! ## Reports -/

theorem Severity.ofName?_name (s : Severity) : ofName? s.name = some s := by
  cases s <;> rfl

theorem AdviceKind.ofName?_name (k : AdviceKind) : ofName? k.name = some k := by
  cases k <;> rfl

theorem Json.finite_optional_text (t : Option Text) :
    (Json.ofOption .string t).finite = .ofOption .string t := Json.finite_ofOption _ t

namespace Issue

theorem value?_read_write (issue : Issue) : (read issue.write).value? = some issue := by
  refine Record.value?_read_record (of_decide_eq_true rfl) fun hkeys ↦ ?_
  exact (hkeys.optional rfl (value?_nullable_text _)).map _
    |>.seq (hkeys.optional rfl (value?_nullable_text _))
    |>.seq (hkeys.optional rfl (Reading.value?_choice (Severity.ofName?_name _)))
    |>.seq (hkeys.required rfl rfl)
    |>.seq (hkeys.optional rfl (value?_nullable_text _))

theorem finite_write (issue : Issue) : issue.write.finite = issue.write := by
  rw [write, Json.finite_record]
  simp only [List.map_cons, List.map_nil, Json.finite_optional_text]
  rfl

theorem within_write (issue : Issue) : issue.write.Within 2 := by
  apply Json.within_record (of_decide_eq_true rfl)
  simp only [List.forall_mem_cons]
  exact ⟨within_optional_text _, within_optional_text _, within_text _, within_text _,
    within_optional_text _, nofun⟩

end Issue

namespace Advice

theorem value?_read_write (advice : Advice) : (read advice.write).value? = some advice := by
  refine Record.value?_read_record (of_decide_eq_true rfl) fun hkeys ↦ ?_
  exact (hkeys.optional rfl (value?_nullable_text _)).map _
    |>.seq (hkeys.optional rfl (Reading.value?_choice (AdviceKind.ofName?_name _)))
    |>.seq (hkeys.required rfl rfl)
    |>.seq (hkeys.required rfl rfl)

theorem finite_write (advice : Advice) : advice.write.finite = advice.write := by
  rw [write, Json.finite_record]
  simp only [List.map_cons, List.map_nil, Json.finite_optional_text]
  rfl

theorem within_write (advice : Advice) : advice.write.Within 2 := by
  apply Json.within_record (of_decide_eq_true rfl)
  simp only [List.forall_mem_cons]
  exact ⟨within_optional_text _, within_text _, within_text _, within_text _, nofun⟩

end Advice

namespace Report

theorem value?_read_write (report : Report) : (read report.write).value? = some report := by
  refine Record.value?_read_record (of_decide_eq_true rfl) fun hkeys ↦ ?_
  exact (hkeys.optional rfl rfl).map _
    |>.seq (hkeys.optional rfl (Reading.value?_list_self Issue.value?_read_write _))
    |>.seq (hkeys.optional rfl (Reading.value?_list_self Advice.value?_read_write _))

theorem finite_write (report : Report) : report.write.finite = report.write := by
  rw [write, Json.finite_record]
  simp only [List.map_cons, List.map_nil, Json.finite_ofList, Issue.finite_write,
    Advice.finite_write]
  rfl

theorem within_write (report : Report) : report.write.Within 4 := by
  apply Json.within_record (of_decide_eq_true rfl)
  simp only [List.forall_mem_cons]
  exact ⟨(within_flag _).mono (by omega), Json.within_ofList fun issue _ ↦ issue.within_write,
    Json.within_ofList fun advice _ ↦ advice.within_write, nofun⟩

end Report

/-! ## What is stored -/

namespace Step

theorem runtime_settled (step : Step) : step.settled.runtime = step.runtime := by
  simp only [runtime, requiredFields, optionalFields, settled, Json.ofOption_map,
    Fields.write_settled, StepTarget.write_settled]

/-- The step without a timeout that is infinite or NaN. -/
def timed (step : Step) : Step := { step with timeout := step.timeout.filter Timeout.isFinite }

theorem finite_write (s : Spelling) (step : Step) : (step.write s).finite = step.timed.write s := by
  rw [write, write, Json.finite_record]
  simp only [fields, requiredFields, optionalFields, List.cons_append, List.nil_append,
    List.map_cons, List.map_nil, Timeout.finite_write]
  simp only [Json.finite_ofOption, Fields.finite_write, StepTarget.finite_write,
    Loop.finite_write]
  rfl

/-- A step is given to the runtime as before only if it keeps its timeout. -/
theorem runtime_timed_eq_iff {step : Step} :
    step.timed.runtime = step.runtime ↔ ∀ t ∈ step.timeout, t.isFinite := by
  rw [← Timeout.filter_isFinite_eq_self_iff]
  constructor
  · intro h
    -- what is read of both is settled, and settling keeps timeouts
    have htimed := step.timed.value?_read_runtime
    rw [h, step.value?_read_runtime] at htimed
    exact (congrArg Step.timeout (Option.some.inj htimed)).symm
  · intro h
    rw [timed, h]

end Step

theorem Connection.finite_write (s : Spelling) (c : Connection) :
    (c.write s).finite = c.write s := by
  rw [write, Json.finite_record]
  simp only [List.map_cons, List.map_nil, Condition.finite_write]
  rfl

/-! ## Snapshots -/

namespace Snapshot

variable {s : Snapshot}

/-- The snapshot that is stored: its free values as they are written, and no timeout that is
infinite or NaN. -/
def stored (s : Snapshot) : Snapshot :=
  { s with
    steps := s.steps.map fun step ↦ step.timed.settled
    connections := s.connections.map Connection.settled }

theorem value?_read_write (spelling : Spelling) (s : Snapshot) :
    (read (s.write spelling)).value?
      = some { s with
          steps := s.steps.map Step.settled
          connections := s.connections.map Connection.settled } := by
  have hmoment : ∀ f ∈ s.fields spelling, f.1.Apart .compiledAt := by
    simp only [fields, List.forall_mem_cons]
    exact ⟨by decide, by decide, by decide, by decide, by decide, by decide, by decide, nofun⟩
  refine Record.value?_read_record (of_decide_eq_true rfl) fun hkeys ↦ ?_
  exact (hkeys.required rfl rfl).map _
    |>.seq (hkeys.optional rfl rfl)
    |>.seq (hkeys.optional rfl (Reading.value?_choice (ExecutionMode.ofName?_name _)))
    |>.seq (hkeys.optional rfl (Reading.value?_list fun step _ ↦ step.value?_read_write spelling))
    |>.seq (hkeys.optional rfl (Reading.value?_list fun c _ ↦ c.value?_read_write spelling))
    |>.seq (hkeys.optional rfl s.validation.value?_read_write)
    |>.seq (hkeys.required rfl rfl)
    |>.seq (Record.Yields.default (Fields.find?_spelled_of_apart hmoment))

theorem finite_write (spelling : Spelling) (s : Snapshot) :
    (s.write spelling).finite
      = Snapshot.write spelling { s with steps := s.steps.map Step.timed } := by
  rw [write, write, Json.finite_record]
  simp only [fields, List.map_cons, List.map_nil, Json.finite_ofList, Step.finite_write,
    Connection.finite_write, Report.finite_write, Json.ofList_map]
  rfl

/-- What is stored is read back. -/
theorem value?_read_finite (spelling : Spelling) (s : Snapshot) :
    (read (s.write spelling).finite).value? = some s.stored := by
  rw [finite_write, value?_read_write, List.map_map]
  rfl

/-! ### Levels -/

theorem within_write (spelling : Spelling) {n : Nat} (hn : 2 ≤ n)
    (h : s.schedule.AllFree (Json.Within n) (Fields.AllWithin n)) :
    (s.write spelling).Within (n + 5) := by
  obtain ⟨hsteps, hconnections⟩ := h
  apply Json.within_record (of_decide_eq_true rfl)
  simp only [fields, List.forall_mem_cons]
  refine ⟨?_, ?_, ?_, ?_, ?_, ?_, ?_, nofun⟩
  · exact (within_text _).mono (by omega)
  · exact (within_text _).mono (by omega)
  · exact (within_text _).mono (by omega)
  · exact Json.within_ofList fun step hstep ↦
      Step.within_write spelling (by omega) (hsteps step hstep)
  · exact (Json.within_ofList fun c hc ↦
      Connection.within_write spelling hn (hconnections c hc)).mono (by omega)
  · exact s.validation.within_write.mono (by omega)
  · exact (within_text _).mono (by omega)

/-! ### Restoring -/

/-- The text of a snapshot is read back unless the snapshot has too many levels. -/
theorem restore_storedText (h : (s.write .plain).Distinct) :
    restore s.storedText
      = if (s.write .plain).height ≤ maxHeight then .ok s.stored else .error [⟨[], .notJson⟩] := by
  have hparse : Json.parse? s.storedText = some (s.write .plain).finite :=
    Json.parse?_oneLine h.finite
  rw [restore, hparse]
  dsimp only
  rw [Json.height_finite, Reading.result_of_value? (s.value?_read_finite .plain)]

theorem runtime_stored (s : Snapshot) :
    s.stored.runtime = .record .wire
      [(.steps, .ofList (fun step ↦ step.timed.runtime) s.steps),
       (.connections, .ofList Connection.runtime s.connections)] := by
  have hconnections : ∀ c : Connection, c.settled.runtime = c.runtime :=
    Connection.write_settled .wire
  rw [runtime, Schedule.runtime]
  simp only [Schedule.runtimeFields, schedule, stored, Json.ofList_map, Step.runtime_settled,
    hconnections]

/-- The runtime is given the same as before exactly if all timeouts are finite. -/
theorem runtime_stored_eq_iff :
    s.stored.runtime = s.runtime ↔ ∀ step ∈ s.steps, ∀ t ∈ step.timeout, t.isFinite := by
  have hsteps : s.stored.runtime = s.runtime ↔
      s.steps.map (fun step ↦ step.timed.runtime) = s.steps.map Step.runtime := by
    rw [runtime_stored, runtime, Schedule.runtime]
    simp [Schedule.runtimeFields, schedule, Json.record, Json.ofList]
  rw [hsteps, List.map_inj_left]
  exact forall₂_congr fun step _ ↦ step.runtime_timed_eq_iff

/-! ### Storing -/

section Storing

open Json

variable {n : Nat}

theorem stepFault?_eq_none_iff {step : Step} (h : (step.write .plain).height ≤ n + 1)
    (hn : n ≤ freeHeight) :
    stepFault? step = none ↔ (step.write .plain).unwritable? .texts (n + 1) = none := by
  have hfields : ∀ f ∈ step.fields .plain, f.2.height ≤ n := height_record_le_iff.mp h
  rw [stepFault?, List.findSome?_eq_none_iff, Step.write, unwritable?_record_eq_none_iff]
  refine forall₂_congr fun f hf ↦ ?_
  rw [stepFieldFault?]
  split
  next =>
    exact ⟨fun h ↦ unwritable?_of_height_le h (hfields f hf),
      fun h ↦ unwritable?_of_height_le h ((hfields f hf).trans hn)⟩
  next => exact ⟨fun h ↦ unwritable?_of_height_le h (hfields f hf), unencodable?_of_unwritable?⟩

/-- A snapshot of few levels is stored exactly if its texts can be encoded. -/
theorem storeFault?_eq_none_iff (h : (s.write .plain).height ≤ n + 3) (hn : n ≤ freeHeight) :
    s.storeFault? = none ↔ (s.write .plain).unwritable? .texts (n + 3) = none := by
  have hfields : ∀ f ∈ s.fields .plain, f.2.height ≤ n + 2 := height_record_le_iff.mp h
  rw [storeFault?, List.findSome?_eq_none_iff, Snapshot.write, unwritable?_record_eq_none_iff]
  have hkeys : ((s.fields .plain).map Prod.fst).Nodup := of_decide_eq_true rfl
  have hsteps : (Key.steps, ofList (Step.write .plain) s.steps) ∈ s.fields .plain := by
    simp [fields]
  refine forall₂_congr fun f hf ↦ ?_
  split
  next hk =>
    obtain rfl := List.inj_on_of_nodup_map hkeys hf hsteps hk
    rw [unwritable?_ofList_eq_none_iff, List.findSome?_eq_none_iff]
    exact forall₂_congr fun step hstep ↦
      stepFault?_eq_none_iff (height_ofList_le_iff.mp (hfields _ hf) step hstep) hn
  next =>
    exact ⟨fun h ↦ unwritable?_of_height_le h (hfields f hf), unencodable?_of_unwritable?⟩

end Storing

theorem restore_of_unwritable?_eq_none (h : (s.write .plain).Distinct)
    (hwrite : (s.write .plain).unwritable? .texts maxHeight = none) :
    s.storeFault? = none ∧ restore s.storedText = .ok s.stored := by
  have hheight := Json.height_le_of_unwritable?_eq_none hwrite
  rw [restore_storedText h, if_pos hheight]
  exact ⟨(storeFault?_eq_none_iff (n := 198) hheight (by decide)).mpr hwrite, rfl⟩

/-- **When a snapshot is stored and read back.** -/
theorem exists_restored_iff (h : (s.write .plain).Distinct) :
    (s.storeFault? = none ∧ ∃ r, restore s.storedText = .ok r) ↔
      (s.write .plain).unwritable? .texts maxHeight = none := by
  constructor
  · rintro ⟨hstore, r, hr⟩
    rw [restore_storedText h] at hr
    split at hr
    next hheight => exact (storeFault?_eq_none_iff (n := 198) hheight (by decide)).mp hstore
    next => exact absurd hr (by simp)
  · intro hwrite
    obtain ⟨hstore, hrestore⟩ := restore_of_unwritable?_eq_none h hwrite
    exact ⟨hstore, _, hrestore⟩

end Snapshot

/-! ## Snapshots of canvases -/

/-- The fingerprint by the characters of the canonical text. -/
theorem Schedule.fingerprint_eq (s : Schedule) :
    s.fingerprint = String.ofList ((Sha256.hashWords
      ((s.runtime.sortKeys.render ⟨none, true⟩).readable.flatMap String.utf8EncodeChar)).flatMap
        fun w ↦ hexDigits 8 w.toNat) := sha256Hex_ofList _

theorem Branch.eq_null_of_mem_markers {b : Branch} {v : Json} (hv : v ∈ b.condition.markers) :
    v = .null := by
  cases b with
  | onSuccess | onFailure | always => exact List.mem_singleton.mp hv
  | ifContains test | ifEquals test => exact absurd hv List.not_mem_nil

namespace Graph

variable {settings : Settings} {picker : Picker} {form : SaveForm} {g : Graph} {s : Snapshot}

namespace Saved

theorem allFree_within (h : g.Saved settings picker form s)
    (hfree : g.AllFree Json.Distinct Json.DistinctFields) :
    s.schedule.AllFree (Json.Within freeHeight) (Fields.AllWithin freeHeight) := by
  constructor
  · intro step hstep
    have hfault : step.writeFault? = none := (h.written_steps step hstep).fault
    rw [Step.writeFault?, Option.or_eq_none_iff, Option.bind_eq_none_iff,
      Option.bind_eq_none_iff] at hfault
    obtain ⟨htrigger, htarget⟩ := hfault
    have hdistinct : step.AllFree Json.Distinct Json.DistinctFields := by
      have hmem : step ∈ s.steps := hstep
      rw [h.steps_eq] at hmem
      obtain ⟨n, hn, rfl⟩ := List.mem_map.mp hmem
      exact (hfree.1 n (mem_compiledNodes.mp hn).2.1.mem).2
    exact ⟨fun m hm ↦ Fields.allWithin_of_writeFault?_eq_none (hdistinct.1 m hm) (htrigger m hm),
      fun t ht ↦ StepTarget.within_of_choiceFault?_eq_none (hdistinct.2 t ht) (htarget t ht)⟩
  · intro c hc v hv
    -- a condition in normal form has no free value but null
    rw [← h.wellFormed.normalized c hc] at hv
    rw [Branch.eq_null_of_mem_markers hv]
    exact ⟨True.intro, by decide⟩

/-- The hash of a snapshot can always be stored. -/
theorem unwritable?_write (h : g.Saved settings picker form s) {n : Nat}
    (hwrite : (Snapshot.write .plain { s with hash := "" }).unwritable? .texts (n + 2) = none) :
    (s.write .plain).unwritable? .texts (n + 2) = none := by
  have hhash : (Json.string s.hash).unwritable? .texts (n + 1) = none := by
    rw [h.hash, Json.unwritable?, Utf8.encodeFault?_ofString]
    rfl
  rw [Snapshot.write, Json.unwritable?_record_eq_none_iff] at hwrite ⊢
  simp only [Snapshot.fields, List.forall_mem_cons] at hwrite ⊢
  obtain ⟨hname, hdescription, hmode, hsteps, hconnections, hvalidation, -, -⟩ := hwrite
  exact ⟨hname, hdescription, hmode, hsteps, hconnections, hvalidation, hhash, nofun⟩

theorem distinct_write (h : g.Saved settings picker form s)
    (hfree : g.AllFree Json.Distinct Json.DistinctFields) : (s.write .plain).Distinct :=
  (Snapshot.within_write .plain (by decide) (h.allFree_within hfree)).1

/-- A snapshot is put together from the canvas, the form and the mode. -/
theorem eq_mk (h : g.Saved settings picker form s) (mode : ExecutionMode)
    (hmode : ExecutionMode.ofValue form.mode = .ok mode) :
    s = ⟨form.givenName, form.description.getD "", mode, g.steps picker.restriction,
      g.connections picker.restriction,
      ⟨true, [], (g.shortcomings settings mode.name).map Shortcoming.advice⟩,
      (g.compile picker.restriction).fingerprint⟩ := by
  have hsame : mode = s.mode :=
    Except.ok.inj (hmode.symm.trans (SaveForm.checkedMode_eq_ok_iff.mp h.mode).2.2)
  have hreport : g.report settings mode.name
      = ⟨true, [], (g.shortcomings settings mode.name).map Shortcoming.advice⟩ := by
    rw [report, h.problems]
    rfl
  have hhash : s.hash = (g.compile picker.restriction).fingerprint := h.schedule ▸ h.hash
  have hvalidation := h.validation
  rw [← hsame, hreport] at hvalidation
  cases s
  rw [Snapshot.mk.injEq]
  exact ⟨h.name, h.description, hsame.symm, congrArg Schedule.steps h.schedule,
    congrArg Schedule.connections h.schedule, hvalidation, hhash⟩

end Saved

/-- **Restoring a snapshot.** -/
theorem restore_snapshot (h : g.snapshot settings picker form = .ok s)
    (hfree : g.AllFree Json.Distinct Json.DistinctFields) :
    ((s.storeFault? = none ∧ ∃ r, Snapshot.restore s.storedText = .ok r) ↔
      (s.write .plain).unwritable? .texts Snapshot.maxHeight = none) ∧
    ∀ r, Snapshot.restore s.storedText = .ok r →
      r = s.stored ∧
      (r.runtime = s.runtime ↔ ∀ step ∈ s.steps, ∀ t ∈ step.timeout, t.isFinite) ∧
      ((∀ step ∈ s.steps, ∀ t ∈ step.timeout, t.isFinite) → r.schedule.fingerprint = r.hash) := by
  have hsaved := snapshot_eq_ok_iff.mp h
  have hdistinct := hsaved.distinct_write hfree
  refine ⟨Snapshot.exists_restored_iff hdistinct, fun r hr ↦ ?_⟩
  obtain rfl : r = s.stored := by
    rw [Snapshot.restore_storedText hdistinct] at hr
    split at hr
    next => exact (Except.ok.inj hr).symm
    next => exact absurd hr (by simp)
  refine ⟨rfl, Snapshot.runtime_stored_eq_iff, fun hfinite ↦ ?_⟩
  have hruntime : s.stored.runtime = s.runtime := Snapshot.runtime_stored_eq_iff.mpr hfinite
  have hhash : s.stored.hash = s.schedule.fingerprint := hsaved.hash
  rw [hhash]
  exact congrArg (fun v : Json ↦ (sha256Hex v.canonical : Text)) hruntime

/-- An agent that is called with a timeout, by a trigger without a limit. -/
def timedAgent (timeout : Timeout) : Graph where
  nodes :=
    [⟨"a", .agent, .origin,
      { NodeData.empty with
        canisterId := some ("aaaaa-aa" : String)
        timeout := some timeout
        triggerConfig := some [("limit", .float (.infinity false))] }⟩]
  edges := []

/-- The form by which a canvas is saved under the name of an agent. -/
def agentForm : SaveForm := ⟨some ("Agent" : String), none, .string "sequential"⟩

theorem allFree_timedAgent (timeout : Timeout) :
    (timedAgent timeout).AllFree Json.Distinct Json.DistinctFields := by
  simp [timedAgent, AllFree, Node.AllFree, NodeData.AllFree, NodeData.empty, Json.Distinct,
    Json.DistinctFields]

theorem hasCycle_timedAgent (timeout : Timeout) : (timedAgent timeout).hasCycle = false :=
  hasCycle_eq_false_of_lt (fun _ ↦ 0) nofun

theorem exists_restored_timedAgent :
    ∃ s r,
      (timedAgent (.whole 30)).snapshot (.defaults (.ofText "/")) ⟨none, none⟩ agentForm = .ok s ∧
      s.storeFault? = none ∧ Snapshot.restore s.storedText = .ok r ∧ r.steps ≠ s.steps ∧
      r.schedule.fingerprint = r.hash := by
  obtain ⟨s, hs⟩ : ∃ s, (timedAgent (.whole 30)).Saved (.defaults (.ofText "/")) ⟨none, none⟩
      agentForm s :=
    exists_saved_iff.mpr ⟨by decide, ⟨.sequential, rfl⟩,
      problems_eq_nil_iff.mpr ⟨by decide +kernel, hasCycle_timedAgent _⟩, by decide +kernel,
      by decide +kernel⟩
  have hsnapshot := snapshot_eq_ok_iff.mpr hs
  obtain ⟨hrestored, hall⟩ := restore_snapshot hsnapshot (allFree_timedAgent _)
  have hmk := hs.eq_mk .sequential rfl
  have hwrite : (s.write .plain).unwritable? .texts Snapshot.maxHeight = none := by
    apply hs.unwritable?_write
    rw [hmk]
    decide +kernel
  obtain ⟨hstore, r, hr⟩ := hrestored.mpr hwrite
  obtain ⟨rfl, -, hhash⟩ := hall r hr
  refine ⟨s, s.stored, hsnapshot, hstore, hr, ?_, hhash ?_⟩
  · rw [hmk]
    decide +kernel
  · rw [hmk]
    decide +kernel

/-- An agent with an infinite timeout. -/
def boundless : Graph := timedAgent (.fractional (.infinity false))

/-- Where a timeout is infinite, what is restored does not match its hash. -/
theorem exists_restored_unlike_hash :
    ∃ (g : Graph) (s r : Snapshot),
      g.snapshot (.defaults (.ofText "/")) ⟨none, none⟩ agentForm = .ok s ∧
      s.storeFault? = none ∧ Snapshot.restore s.storedText = .ok r ∧
      (r.schedule.fingerprint : Text) ≠ r.hash := by
  obtain ⟨s, hs⟩ : ∃ s, boundless.Saved (.defaults (.ofText "/")) ⟨none, none⟩ agentForm s :=
    exists_saved_iff.mpr ⟨by decide, ⟨.sequential, rfl⟩,
      problems_eq_nil_iff.mpr ⟨by decide +kernel, hasCycle_timedAgent _⟩, by decide +kernel,
      by decide +kernel⟩
  have hmk := hs.eq_mk .sequential rfl
  have hwrite : (s.write .plain).unwritable? .texts Snapshot.maxHeight = none := by
    apply hs.unwritable?_write
    rw [hmk]
    decide +kernel
  obtain ⟨hstore, hrestore⟩ := Snapshot.restore_of_unwritable?_eq_none
    (hs.distinct_write (allFree_timedAgent _)) hwrite
  refine ⟨boundless, s, s.stored, snapshot_eq_ok_iff.mpr hs, hstore, hrestore, ?_⟩
  have hhash : s.stored.hash = s.schedule.fingerprint := hs.hash
  rw [hhash, Ne, Text.ofString_inj, Schedule.fingerprint_eq, Schedule.fingerprint_eq,
    String.ofList_inj, hmk]
  decide +kernel

end Graph

end AgentFlow
