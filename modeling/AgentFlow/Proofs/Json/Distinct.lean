import AgentFlow.Proofs.Json.Finite
import AgentFlow.Proofs.Run.Readiness

/-!
# Keys of values that were read

No object that was read repeats a key, at any depth: a key that comes twice in the text keeps its
first place and its last value (`Json.parse_distinct`). The induction is on the fuel of the reader,
over the four functions that it is made of.
-/

namespace AgentFlow

namespace Json

theorem parsed_eq_ok_iff {α : Type} {o : Option α} {a : α} : parsed o = .ok a ↔ o = some a := by
  cases o <;> simp [parsed]

theorem DistinctFields.ofPairs {pairs : Fields} (h : DistinctFields pairs) :
    DistinctFields (Fields.ofPairs pairs) :=
  distinctFields_iff.mpr fun f hf ↦ distinctFields_iff.mp h f (Fields.mem_of_mem_ofPairs hf)

theorem DistinctFields.get? {fields : Fields} (h : DistinctFields fields) {key : Text} {v : Json}
    (hv : fields.get? key = some v) : v.Distinct := by
  obtain ⟨before, after, rfl, -⟩ := List.lookup_eq_some_iff.mp hv
  exact distinctFields_iff.mp h (key, v) (List.mem_append_right before List.mem_cons_self)

/-! ## Words and numbers -/

theorem readUnsigned?_distinct {digits : Nat} {negative : Bool} {t u : Text} {v : Json}
    (h : readUnsigned? digits negative t = some (v, u)) : v.Distinct := by
  unfold readUnsigned? at h
  dsimp only at h
  split at h
  next => cases h
  next =>
    split at h
    next =>
      split at h
      next => cases h
      next =>
        obtain ⟨rfl, -⟩ := Prod.mk.inj (Option.some.inj h)
        trivial
    next =>
      obtain ⟨rfl, -⟩ := Prod.mk.inj (Option.some.inj h)
      trivial

theorem readAtom?_distinct {digits : Nat} {t u : Text} {v : Json}
    (h : readAtom? digits t = some (v, u)) : v.Distinct := by
  have hwords : ∀ p ∈ words, p.2.Distinct := by simp [words, Distinct]
  unfold readAtom? at h
  split at h
  next found hfound =>
    obtain ⟨p, hp, hword⟩ := List.exists_of_findSome?_eq_some hfound
    obtain ⟨rest, -, rfl⟩ := Option.map_eq_some_iff.mp hword
    obtain ⟨rfl, -⟩ := Prod.mk.inj (Option.some.inj h)
    exact hwords p hp
  next =>
    split at h
    next => exact readUnsigned?_distinct h
    next => exact readUnsigned?_distinct h

/-! ## Values -/

/-- What the reader keeps with so much fuel, one clause for each of its functions. -/
structure ReadsDistinct (digits fuel : Nat) : Prop where
  value : ∀ {depth t v u}, readValue digits fuel depth t = .ok (v, u) → v.Distinct
  items : ∀ {depth t vs u}, readItems digits fuel depth t = .ok (vs, u) → DistinctItems vs
  field : ∀ {depth t p u}, readField digits fuel depth t = .ok (p, u) → p.2.Distinct
  fields : ∀ {depth t ps u}, readFields digits fuel depth t = .ok (ps, u) → DistinctFields ps

namespace ReadsDistinct

variable {digits fuel depth : Nat} {t u : Text}

theorem readValue (ih : ReadsDistinct digits fuel) {v : Json}
    (h : Json.readValue digits (fuel + 1) depth t = .ok (v, u)) : v.Distinct := by
  unfold Json.readValue at h
  split at h
  next => cases h
  next =>
    obtain ⟨⟨s, t⟩, -, h⟩ := bind_eq_ok_iff.mp h
    obtain ⟨rfl, -⟩ := Prod.mk.inj (Except.ok.inj h)
    trivial
  next => cases h
  next =>
    obtain rfl := Nat.succ.inj ‹fuel + 1 = _ + 1›
    split at h
    next =>
      obtain ⟨rfl, -⟩ := Prod.mk.inj (Except.ok.inj h)
      trivial
    next =>
      obtain ⟨⟨v, t⟩, hv, h⟩ := bind_eq_ok_iff.mp h
      obtain ⟨⟨vs, t⟩, hvs, h⟩ := bind_eq_ok_iff.mp h
      obtain ⟨rfl, -⟩ := Prod.mk.inj (Except.ok.inj h)
      exact ⟨ih.value hv, ih.items hvs⟩
  next => cases h
  next =>
    obtain rfl := Nat.succ.inj ‹fuel + 1 = _ + 1›
    split at h
    next =>
      obtain ⟨rfl, -⟩ := Prod.mk.inj (Except.ok.inj h)
      exact ⟨List.nodup_nil, trivial⟩
    next =>
      obtain ⟨⟨p, t⟩, hp, h⟩ := bind_eq_ok_iff.mp h
      obtain ⟨⟨ps, t⟩, hps, h⟩ := bind_eq_ok_iff.mp h
      obtain ⟨rfl, -⟩ := Prod.mk.inj (Except.ok.inj h)
      have hpairs : DistinctFields (p :: ps) := ⟨ih.field hp, ih.fields hps⟩
      exact ⟨Fields.nodup_ofPairs _, hpairs.ofPairs⟩
  next => exact readAtom?_distinct (parsed_eq_ok_iff.mp h)

theorem readItems (ih : ReadsDistinct digits fuel) {vs : List Json}
    (h : Json.readItems digits (fuel + 1) depth t = .ok (vs, u)) : DistinctItems vs := by
  unfold Json.readItems at h
  split at h
  next => cases h
  next =>
    obtain ⟨rfl, -⟩ := Prod.mk.inj (Except.ok.inj h)
    trivial
  next =>
    obtain rfl := Nat.succ.inj ‹fuel + 1 = _ + 1›
    obtain ⟨⟨v, t⟩, hv, h⟩ := bind_eq_ok_iff.mp h
    obtain ⟨⟨vs, t⟩, hvs, h⟩ := bind_eq_ok_iff.mp h
    obtain ⟨rfl, -⟩ := Prod.mk.inj (Except.ok.inj h)
    exact ⟨ih.value hv, ih.items hvs⟩
  next => cases h

theorem readField (ih : ReadsDistinct digits fuel) {p : Text × Json}
    (h : Json.readField digits (fuel + 1) depth t = .ok (p, u)) : p.2.Distinct := by
  unfold Json.readField at h
  split at h
  next => cases h
  next =>
    obtain rfl := Nat.succ.inj ‹fuel + 1 = _ + 1›
    obtain ⟨⟨key, t⟩, -, h⟩ := bind_eq_ok_iff.mp h
    dsimp only at h
    split at h
    next =>
      obtain ⟨⟨v, t⟩, hv, h⟩ := bind_eq_ok_iff.mp h
      obtain ⟨rfl, -⟩ := Prod.mk.inj (Except.ok.inj h)
      exact ih.value hv
    next => cases h
  next => cases h

theorem readFields (ih : ReadsDistinct digits fuel) {ps : Fields}
    (h : Json.readFields digits (fuel + 1) depth t = .ok (ps, u)) : DistinctFields ps := by
  unfold Json.readFields at h
  split at h
  next => cases h
  next =>
    obtain ⟨rfl, -⟩ := Prod.mk.inj (Except.ok.inj h)
    trivial
  next =>
    obtain rfl := Nat.succ.inj ‹fuel + 1 = _ + 1›
    obtain ⟨⟨p, t⟩, hp, h⟩ := bind_eq_ok_iff.mp h
    obtain ⟨⟨ps, t⟩, hps, h⟩ := bind_eq_ok_iff.mp h
    obtain ⟨rfl, -⟩ := Prod.mk.inj (Except.ok.inj h)
    exact ⟨ih.field hp, ih.fields hps⟩
  next => cases h

end ReadsDistinct

theorem readsDistinct (digits fuel : Nat) : ReadsDistinct digits fuel := by
  induction fuel with
  | zero =>
    constructor
    · intro depth t v u h
      simp [readValue] at h
    · intro depth t vs u h
      simp [readItems] at h
    · intro depth t p u h
      simp [readField] at h
    · intro depth t ps u h
      simp [readFields] at h
  | succ fuel ih => exact ⟨ih.readValue, ih.readItems, ih.readField, ih.readFields⟩

/-- **No object that was read repeats a key.** -/
theorem parse_distinct {bounds : Bounds} {t : Text} {v : Json} (h : parse bounds t = .ok v) :
    v.Distinct := by
  rw [parse] at h
  obtain ⟨⟨w, rest⟩, hread, h⟩ := bind_eq_ok_iff.mp h
  dsimp only at h
  split at h
  next => exact Except.ok.inj h ▸ (readsDistinct _ _).value hread
  next => cases h

end Json

end AgentFlow
