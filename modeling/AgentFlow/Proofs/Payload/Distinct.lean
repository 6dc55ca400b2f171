import AgentFlow.Proofs.Json.Distinct
import AgentFlow.Proofs.Payload.RoundTrip

/-!
# Keys of free values that were read

The free values of a model are taken from the value that the model is read from. So they repeat no
key if that value does not (`Template.distinct_of_read`). As for records that were written
(`Record.Yields`), there is one rule for each way to build a reader; a field without free values
needs none of its own.
-/

namespace AgentFlow

/-! ## Readers -/

theorem exists_forall₂_iff {α β : Type} {R : α → β → Prop} {l : List α} :
    (∃ m, List.Forall₂ R l m) ↔ ∀ a ∈ l, ∃ b, R a b := by
  induction l with
  | nil => simp
  | cons a l ih =>
    rw [List.forall_mem_cons, ← ih]
    constructor
    · rintro ⟨_, h⟩
      obtain ⟨b, m, hab, hm, -⟩ := List.forall₂_cons_left_iff.mp h
      exact ⟨⟨b, hab⟩, m, hm⟩
    · rintro ⟨⟨b, hab⟩, m, hm⟩
      exact ⟨b :: m, .cons hab hm⟩

namespace Reading

variable {α β γ : Type}

/-- Whether a reader makes something of a kind of every value that repeats no key. -/
def Gives (read : Json → Reading α) (p : α → Prop) : Prop :=
  ∀ ⦃v a⦄, v.Distinct → (read v).value? = some a → p a

theorem exists_of_value?_map {f : α → β} {r : Reading α} {b : β} (h : (map f r).value? = some b) :
    ∃ a, r.value? = some a ∧ f a = b := by
  rw [value?_map] at h
  exact Option.map_eq_some_iff.mp h

theorem exists_of_value?_both {f : α → β → γ} {r : Reading α} {q : Reading β} {c : γ}
    (h : (both f r q).value? = some c) :
    ∃ a b, r.value? = some a ∧ q.value? = some b ∧ f a b = c := by
  match r, q with
  | .ok a, .ok b => exact ⟨a.value, b.value, rfl, rfl, Option.some.inj h⟩

theorem value?_of_result {r : Reading α} {a : α} (h : r.result = .ok a) : r.value? = some a := by
  match r with
  | .ok b => exact congrArg some (Except.ok.inj h)

/-- Values are read one by one exactly if each of them is. -/
theorem each_eq_ok_iff {read : Json → Reading α} {vs : List Json} {l : List α} :
    each read vs = .ok l ↔ List.Forall₂ (fun v a ↦ (read v).result = .ok a) vs l := by
  rw [each]
  induction vs generalizing l with
  | nil => simp [pure, Except.pure, eq_comm]
  | cons v vs ih =>
    rw [List.mapM_cons, List.forall₂_cons_left_iff]
    simp only [bind_eq_ok_iff, ih]
    constructor
    · rintro ⟨a, ha, tail, htail, h⟩
      exact ⟨a, tail, ha, htail, (Except.ok.inj h).symm⟩
    · rintro ⟨a, tail, ha, htail, rfl⟩
      exact ⟨a, ha, tail, htail, rfl⟩

section Gives

variable {read : Json → Reading α} {p : α → Prop}

theorem gives_anything : Gives anything Json.Distinct := by
  intro v a hv ha
  exact Option.some.inj ha ▸ hv

theorem gives_mapping : Gives mapping Json.DistinctFields := by
  intro v a hv ha
  match v with
  | .object fields => exact Option.some.inj ha ▸ hv.2

theorem Gives.nullable (h : Gives read p) : Gives (nullable read) fun o ↦ ∀ a ∈ o, p a := by
  intro v o hv ho
  unfold Reading.nullable at ho
  split at ho
  next =>
    obtain rfl := Option.some.inj ho
    exact nofun
  next =>
    obtain ⟨b, hb, rfl⟩ := exists_of_value?_map ho
    exact fun a ha ↦ Option.some.inj ha ▸ h hv hb

theorem Gives.items (h : Gives read p) {vs : List Json} (hvs : Json.DistinctItems vs) {i : Nat}
    {l : List α} (hl : (items read i vs).value? = some l) : ∀ a ∈ l, p a := by
  induction vs generalizing i l with
  | nil =>
    obtain rfl := Option.some.inj hl
    exact nofun
  | cons v vs ih =>
    obtain ⟨a, l, ha, htail, rfl⟩ := exists_of_value?_both hl
    rw [value?_under] at ha
    exact List.forall_mem_cons.mpr ⟨h hvs.1 ha, ih hvs.2 htail⟩

theorem Gives.list (h : Gives read p) : Gives (list read) fun l ↦ ∀ a ∈ l, p a := by
  intro v l hv hl
  match v with
  | .array vs => exact h.items hv hl

theorem Gives.oneOf {members : List (String × (Json → Reading α))}
    (h : ∀ m ∈ members, Gives m.2 p) : Gives (oneOf members) p := by
  intro v a hv ha
  rw [Reading.oneOf] at ha
  split at ha
  next first rest hfirst =>
    obtain rfl := Option.some.inj ha
    have hmem := foldl_better_mem rest first
    rw [← hfirst] at hmem
    obtain ⟨m, hm, hread⟩ := List.mem_filterMap.mp hmem
    have hok : (m.2 v).value? = some (rest.foldl better first).value := by
      cases hmv : m.2 v with
      | error => simp [hmv, Except.toOption] at hread
      | ok b =>
        rw [hmv] at hread
        exact congrArg (Option.map Accepted.value) hread
    exact h m hm hv hok
  next => cases ha

theorem Gives.each (h : Gives read p) {vs : List Json} (hvs : Json.DistinctItems vs)
    {l : List α} (hl : each read vs = .ok l) : ∀ a ∈ l, p a := by
  rw [each_eq_ok_iff] at hl
  induction hl with
  | nil => exact nofun
  | cons ha _ ih => exact List.forall_mem_cons.mpr ⟨h hvs.1 (value?_of_result ha), ih hvs.2⟩

end Gives

end Reading

namespace Record

open Reading (Gives)

variable {α β : Type} {r : Record α} {p : α → Prop} {q : β → Prop}

/-- Whether a reader makes something of a kind of all fields that repeat no key. -/
def Keeps (r : Record α) (p : α → Prop) : Prop :=
  ∀ ⦃fields a⦄, Json.DistinctFields fields → (r.run fields).value? = some a → p a

theorem Keeps.read (h : r.Keeps p) : Gives r.read p := by
  intro v a hv ha
  match v with
  | .object fields => exact h hv.2 ha

/-- A field counts by what it gives. -/
theorem Keeps.seq {f : Record (α → β)} (hf : f.Keeps fun g ↦ ∀ a, p a → q (g a))
    (hr : r.Keeps p) : (f <*> r).Keeps q := by
  intro fields b hfields hb
  obtain ⟨g, a, hg, ha, rfl⟩ := Reading.exists_of_value?_both (f := fun (g : α → β) a ↦ g a) hb
  exact hf hfields hg a (hr hfields ha)

/-- The first field counts by what it gives. -/
theorem Keeps.map {g : α → β} (h : ∀ a, p a → q (g a)) (hr : r.Keeps p) : (g <$> r).Keeps q :=
  .seq (f := pure g) (fun _ _ _ hg ↦ Option.some.inj hg ▸ h) hr

/-- A field may count for nothing. -/
theorem Keeps.skip {f : Record (α → β)} (hf : f.Keeps fun g ↦ ∀ a, q (g a)) : (f <*> r).Keeps q :=
  .seq (p := fun _ ↦ True) (fun _ _ hfields hg a _ ↦ hf hfields hg a) fun _ _ _ _ ↦ trivial

/-- The first field may count for nothing. -/
theorem Keeps.first {g : α → β} (h : ∀ a, q (g a)) : (g <$> r).Keeps q :=
  .map (p := fun _ ↦ True) (fun a _ ↦ h a) fun _ _ _ _ ↦ trivial

section Fields

variable {k : Key} {d : α} {read : Json → Reading α}

theorem distinct_of_find? {fields : Fields} {name : String} {v : Json}
    (hfields : Json.DistinctFields fields) (h : fields.find? k = some (name, v)) : v.Distinct := by
  rw [Fields.find?] at h
  split at h
  next hwire => exact (Prod.mk.inj (Option.some.inj h)).2 ▸ hfields.get? hwire
  next =>
    obtain ⟨w, hplain, hw⟩ := Option.map_eq_some_iff.mp h
    exact (Prod.mk.inj hw).2 ▸ hfields.get? hplain

theorem Keeps.required (h : Gives read p) : (required k read).Keeps p := by
  intro fields a hfields ha
  rw [Record.required] at ha
  dsimp only at ha
  split at ha
  next name v hfind => exact h (distinct_of_find? hfields hfind) ((value?_found ..).symm.trans ha)
  next => cases ha

theorem Keeps.optional (hd : p d) (h : Gives read p) : (optional k d read).Keeps p := by
  intro fields a hfields ha
  rw [Record.optional] at ha
  dsimp only at ha
  split at ha
  next name v hfind => exact h (distinct_of_find? hfields hfind) ((value?_found ..).symm.trans ha)
  next => exact Option.some.inj ha ▸ hd

end Fields

end Record

/-! ## Models -/

open Reading (Gives)
open Record (Keeps)

theorem AgentCall.distinct_of_read : Gives read fun call ↦ call.config.Distinct := by
  apply Keeps.read
  exact .seq (.first fun _ _ h ↦ h) (.optional trivial Reading.gives_anything)

theorem StepTarget.distinct_of_read :
    Gives read fun target ↦ ∀ v ∈ target.freeValues, v.Distinct := by
  have hagent : Gives readAgent fun target ↦ ∀ v ∈ target.freeValues, v.Distinct := by
    apply Keeps.read
    exact .map (fun _ h ↦ List.forall_mem_singleton.mpr h) (.required AgentCall.distinct_of_read)
  have hworkflow : Gives readWorkflow fun target ↦ ∀ v ∈ target.freeValues, v.Distinct := by
    apply Keeps.read
    exact .first fun _ ↦ nofun
  apply Gives.oneOf
  simp only [List.forall_mem_cons]
  exact ⟨hagent, hworkflow, nofun⟩

theorem Condition.distinct_of_read : Gives read fun c ↦ ∀ v ∈ c.markers, v.Distinct := by
  have hmarker : ∀ k, (Record.optional k none readMarker).Keeps fun o ↦ ∀ v ∈ o, v.Distinct := by
    refine fun k ↦ .optional nofun fun v o hv ho ↦ ?_
    obtain rfl := Option.some.inj ho
    exact fun w hw ↦ Option.some.inj hw ▸ hv
  apply Keeps.read
  refine .skip (.skip (.seq (.seq (.map ?_ (hmarker _)) (hmarker _)) (hmarker _)))
  intro onSuccess hsuccess onFailure hfailure always halways ifContains ifEquals v hv
  obtain ⟨o, ho, rfl⟩ := List.mem_filterMap.mp hv
  simp only [List.mem_cons, List.not_mem_nil, or_false] at ho
  obtain ho | ho | ho := ho
  · exact hsuccess v ho.symm
  · exact hfailure v ho.symm
  · exact halways v ho.symm

theorem EdgeData.distinct_of_read :
    Gives read fun d ↦ ∀ c ∈ d.condition, ∀ v ∈ c.markers, v.Distinct := by
  apply Keeps.read
  exact .skip (.map (fun _ h _ ↦ h) (.optional nofun (.nullable Condition.distinct_of_read)))

theorem Edge.distinct_of_read : Gives read fun e ↦ e.AllFree Json.Distinct := by
  apply Keeps.read
  refine .seq ?_ (.optional nofun (.nullable EdgeData.distinct_of_read))
  exact .skip (.skip (.skip (.skip (.first fun _ _ _ _ _ _ hdata ↦ hdata))))

theorem NodeData.distinct_of_read :
    Gives read fun d ↦ d.AllFree Json.Distinct Json.DistinctFields := by
  apply Keeps.read
  refine .skip (.seq (.seq (.seq ?_ (.optional trivial Reading.gives_anything))
    (.optional nofun (.nullable Reading.gives_mapping)))
    (.optional nofun (.nullable StepTarget.distinct_of_read)))
  iterate 9 apply Keeps.skip
  exact .first fun _ _ _ _ _ _ _ _ _ _ _ hconfig _ htrigger _ htarget _ ↦
    ⟨hconfig, htrigger, htarget⟩

namespace Node

/-- The fields of a node that are moved into its data if there is none. -/
def lifted (fields : Fields) : Fields :=
  liftedKeys.filterMap fun k ↦ (fields.get? k.wire).map fun v ↦ (Text.ofString k.wire, v)

/-- The fields that are moved have names of their own. -/
theorem nodup_lifted (fields : Fields) : ((lifted fields).map Prod.fst).Nodup := by
  have hnames : (liftedKeys.map fun k ↦ Text.ofString k.wire).Nodup := by decide
  refine List.pairwise_map.mpr (List.pairwise_filterMap.mpr ?_)
  refine (List.pairwise_map.mp hnames).imp fun hne f hf g hg ↦ ?_
  obtain ⟨v, -, rfl⟩ := Option.map_eq_some_iff.mp hf
  obtain ⟨w, -, rfl⟩ := Option.map_eq_some_iff.mp hg
  exact hne

theorem distinct_lifted {fields : Fields} (h : Json.DistinctFields fields) :
    (Json.object (lifted fields)).Distinct := by
  refine ⟨nodup_lifted fields, Json.distinctFields_iff.mpr fun f hf ↦ ?_⟩
  obtain ⟨k, -, hk⟩ := List.mem_filterMap.mp hf
  obtain ⟨v, hv, rfl⟩ := Option.map_eq_some_iff.mp hk
  exact h.get? hv

theorem distinct_liftData {v : Json} (h : v.Distinct) : (liftData v).Distinct := by
  cases v with
  | null | bool _ | int _ | float _ | string _ => trivial
  | array _ => exact h
  | object fields =>
    rw [liftData]
    split
    next => exact h
    next =>
      refine ⟨Fields.nodup_put h.1 _ _, Json.distinctFields_iff.mpr fun f hf ↦ ?_⟩
      obtain rfl | hf := Fields.mem_put hf
      · exact distinct_lifted h.2
      · exact Json.distinctFields_iff.mp h.2 f hf

theorem distinct_of_read : Gives read fun n ↦ n.AllFree Json.Distinct Json.DistinctFields := by
  -- the record is read from a value in which fields were moved into the data
  have hrecord : Gives record.read fun n ↦ n.AllFree Json.Distinct Json.DistinctFields := by
    apply Keeps.read
    refine .seq ?_ (.optional ?_ NodeData.distinct_of_read)
    · exact .skip (.skip (.first fun _ _ _ _ hdata ↦ hdata))
    · exact ⟨trivial, nofun, nofun⟩
  exact fun v n hv hn ↦ hrecord (distinct_liftData hv) hn

end Node

theorem Template.distinct_of_read :
    Gives read fun t ↦ t.AllFree Json.Distinct Json.DistinctFields := by
  have hnodes := Gives.list Node.distinct_of_read
  have hedges := Gives.list Edge.distinct_of_read
  apply Keeps.read
  iterate 5 apply Keeps.skip
  refine .seq (.seq ?_ (.optional (List.forall_mem_nil _) hnodes))
    (.optional (List.forall_mem_nil _) hedges)
  iterate 3 apply Keeps.skip
  exact .first fun _ _ _ _ _ hnodes _ hedges _ _ _ _ _ ↦ ⟨hnodes, hedges⟩

end AgentFlow
