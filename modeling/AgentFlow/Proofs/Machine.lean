import Mathlib.Data.Prod.Lex

/-!
# Loops with lookups that can fail

A loop that reads tables taken turn by turn. Whatever it looks up may be missing, which ends it at
once and without a result; so nothing about its run goes without saying, neither that it ends nor
that it ends well.

Both come from one argument (`Machine.run`). It takes a statement about states that the first state
fulfils, and a size in two parts, of which the first part goes down or stays while the second one
goes down. If a turn from a state that fulfils the statement never fails, returns nothing but one
result and otherwise goes on to a smaller state that fulfils the statement again, then the loop ends
with that result, and all states that it passes fulfil the statement.
-/

namespace AgentFlow

/-- What a turn of a loop comes to. -/
inductive Turn (σ ρ : Type) where
  /-- The loop goes on from here. -/
  | next (s : σ)
  /-- The loop ends with a result. -/
  | returns (r : ρ)
  /-- Something that is looked up is missing. -/
  | fails

/-- A loop, by its first state and its turns. -/
structure Machine (σ ρ : Type) where
  /-- The first state; none if a lookup fails before the loop. -/
  start : Option σ
  /-- One turn. -/
  turn : σ → Turn σ ρ

variable {σ ρ : Type}

/-- The state with which the loop goes on, if it does. -/
def Turn.next? : Turn σ ρ → Option σ
  | .next s => some s
  | .returns _ => none
  | .fails => none

/-- A turn from `s` keeps a statement and goes down in size, or it returns `result`. -/
def Turn.Sound (Inv : σ → Prop) (size : σ → Nat ×ₗ Nat) (result : ρ) (s : σ) : Turn σ ρ → Prop
  | .next t => Inv t ∧ size t < size s
  | .returns r => r = result
  | .fails => False

namespace Machine

variable {m : Machine σ ρ}

/-! ## Runs -/

/-- The state after some turns, if the loop goes on for that long. -/
def after (m : Machine σ ρ) : Nat → Option σ
  | 0 => m.start
  | n + 1 => (m.after n).bind fun s ↦ (m.turn s).next?

/-- The loop passes a state. -/
def Passes (m : Machine σ ρ) (s : σ) : Prop := ∃ n, m.after n = some s

/-- The loop ends, and with this result. -/
def Ends (m : Machine σ ρ) (r : ρ) : Prop := ∃ n s, m.after n = some s ∧ m.turn s = .returns r

/-- No lookup fails, neither before the loop nor in a turn. -/
def NeverFails (m : Machine σ ρ) : Prop := m.start ≠ none ∧ ∀ s, m.Passes s → m.turn s ≠ .fails

theorem after_succ {n : Nat} {s t : σ} (hs : m.after n = some s) (ht : m.turn s = .next t) :
    m.after (n + 1) = some t := by
  rw [after, hs, Option.bind_some, ht, Turn.next?]

/-- A loop that has ended does not go on. -/
theorem after_eq_none {n k : Nat} {s : σ} {r : ρ} (hs : m.after n = some s)
    (hr : m.turn s = .returns r) (hk : n < k) : m.after k = none := by
  induction k, hk using Nat.le_induction with
  | base => rw [after, hs, Option.bind_some, hr, Turn.next?]
  | succ k _ ih => rw [after, ih, Option.bind_none]

/-- A loop has one result. -/
theorem Ends.unique {r r' : ρ} (h : m.Ends r) (h' : m.Ends r') : r = r' := by
  obtain ⟨n, s, hs, hr⟩ := h
  obtain ⟨n', s', hs', hr'⟩ := h'
  rcases Nat.lt_trichotomy n n' with hlt | rfl | hlt
  · cases (after_eq_none hs hr hlt).symm.trans hs'
  · obtain rfl := Option.some_inj.mp (hs.symm.trans hs')
    exact Turn.returns.inj (hr.symm.trans hr')
  · cases (after_eq_none hs' hr' hlt).symm.trans hs

/-! ## What turns keep -/

section Invariant

variable {Inv : σ → Prop} {size : σ → Nat ×ₗ Nat} {result : ρ}

theorem inv_of_passes (hstart : ∀ s ∈ m.start, Inv s)
    (hturn : ∀ s, Inv s → (m.turn s).Sound Inv size result s) {s : σ} (h : m.Passes s) :
    Inv s := by
  obtain ⟨n, hn⟩ := h
  induction n generalizing s with
  | zero => exact hstart s hn
  | succ n ih =>
    obtain ⟨t, ht, hs⟩ := Option.bind_eq_some_iff.mp hn
    have hsound := hturn t (ih ht)
    cases hcase : m.turn t with
    | next t' =>
      rw [hcase] at hsound hs
      exact Option.some_inj.mp hs ▸ hsound.1
    | returns r =>
      rw [hcase] at hs
      cases hs
    | fails => exact (hcase ▸ hsound).elim

/-- By the size of the state, after however many turns it comes up. -/
theorem ends_of_after (hturn : ∀ s, Inv s → (m.turn s).Sound Inv size result s) {n : Nat} {s : σ}
    (hn : m.after n = some s) (hs : Inv s) : m.Ends result := by
  induction hsize : size s using WellFoundedLT.induction generalizing n s with
  | _ k ih =>
    have hsound := hturn s hs
    cases hcase : m.turn s with
    | next t =>
      rw [hcase] at hsound
      exact ih _ (hsize ▸ hsound.2) (after_succ hn hcase) hsound.1 rfl
    | returns r =>
      rw [hcase] at hsound
      exact ⟨n, s, hn, hcase.trans (congrArg _ hsound)⟩
    | fails => exact (hcase ▸ hsound).elim

/-- **A whole run** of turns that are sound. -/
theorem run {s₀ : σ} (hstart : m.start = some s₀) (hs₀ : Inv s₀)
    (hturn : ∀ s, Inv s → (m.turn s).Sound Inv size result s) :
    m.Ends result ∧ m.NeverFails ∧ ∀ s, m.Passes s → Inv s := by
  have hinv : ∀ s, m.Passes s → Inv s := fun s ↦
    inv_of_passes (fun t ht ↦ Option.some_inj.mp (hstart.symm.trans ht) ▸ hs₀) hturn
  have hafter : m.after 0 = some s₀ := hstart
  refine ⟨ends_of_after hturn hafter hs₀, ⟨?_, fun s hs hfails ↦ ?_⟩, hinv⟩
  · rw [hstart]
    exact Option.some_ne_none s₀
  · have hsound := hturn s (hinv s hs)
    rwa [hfails] at hsound

end Invariant

end Machine

end AgentFlow
