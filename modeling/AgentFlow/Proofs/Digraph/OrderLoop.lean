import AgentFlow.Proofs.Digraph.Table
import AgentFlow.Proofs.Machine

/-!
# The loop of the topological order

The order is computed by a loop on a table of counts, which are numbers that could go below zero,
and a table of neighbours. A turn either takes an id off the queue or settles one arc out of the id
that was taken last; settling looks up the count of the target, which must not be missing.

The invariant (`Sorting`) ties a state to the queue of `Digraph.run` by settling in thought what is
left of the arcs of the last id: the state that would come of it is one of the run. So what is known
of the steps of the run is used here as it stands, and the loop returns the order (`orderLoop_run`).
In between, the count of an id is the number of the unsettled arcs into it, with those of the last id
that lie ahead.
-/

namespace AgentFlow

namespace Digraph

variable {α : Type} [DecidableEq α]

/-! ## The loop -/

/-- A state of the loop. -/
structure SortState (α : Type) where
  /-- The counts of arcs into ids. -/
  counts : Table α Int
  /-- The ids that wait for nothing. -/
  queue : List α
  /-- The ids that have left the queue, in order. -/
  done : List α
  /-- The targets of the arcs of the last id that are not settled yet. -/
  ahead : List α

/-- Settles the next arc, or takes the next id off the queue if no arc is left. -/
def sortTurn (adjacency : Table α (List α)) (s : SortState α) : Turn (SortState α) (List α) :=
  match s.ahead, s.queue with
  | u :: ahead, queue =>
    match s.counts.get? u with
    | none => .fails
    | some k => .next
      { s with
        counts := s.counts.put u (k - 1)
        queue := if k - 1 = 0 then queue ++ [u] else queue
        ahead := ahead }
  | [], v :: queue => .next
      { s with queue := queue, done := s.done ++ [v], ahead := (adjacency.get? v).getD [] }
  | [], [] => .returns s.done

/-- **The loop of the order.** The queue starts with the ids whose count is zero. -/
def orderLoop (g : Digraph α) : Machine (SortState α) (List α) where
  start := some
    { counts := g.tally
      queue := (g.tally.filter fun p ↦ p.2 = 0).map Prod.fst
      done := []
      ahead := [] }
  turn := sortTurn (g.adjacency [])

/-! ## The invariant -/

/-- The number of arcs into an id that are not settled, when the last id that is done has those to
`ahead` still to settle. -/
def outstanding (g : Digraph α) (done ahead : List α) (v : α) : Nat :=
  g.unsettled done v + ahead.count v

theorem outstanding_nil (g : Digraph α) (done : List α) (v : α) :
    g.outstanding done [] v = g.unsettled done v := by
  rw [outstanding, List.count_nil, Nat.add_zero]

theorem outstanding_cons_self (g : Digraph α) (done ahead : List α) (v : α) :
    g.outstanding done (v :: ahead) v = g.outstanding done ahead v + 1 := by
  rw [outstanding, outstanding, List.count_cons_self, Nat.add_assoc]

theorem outstanding_cons_of_ne (g : Digraph α) (done ahead : List α) {u v : α} (h : v ≠ u) :
    g.outstanding done (u :: ahead) v = g.outstanding done ahead v := by
  rw [outstanding, outstanding, List.count_cons_of_ne (Ne.symm h)]

/-- An arc into `u` that is settled counts `u` down and leaves the other counts as they are. -/
theorem put_outstanding (g : Digraph α) (done ahead : List α) {u : α} (hu : g.Entered u) :
    (Table.ofKeys g.entered fun v ↦ (g.outstanding done (u :: ahead) v : Int)).put u
        (g.outstanding done ahead u)
      = .ofKeys g.entered fun v ↦ (g.outstanding done ahead v : Int) := by
  rw [Table.put_ofKeys g.nodup_entered, Table.enter, if_pos (mem_entered.mpr hu)]
  congr 1
  funext v
  by_cases hvu : v = u
  · rw [hvu, Function.update_self]
  · rw [Function.update_of_ne hvu, outstanding_cons_of_ne g done ahead hvu]

/-- What the settling of all arcs ahead would come to is a state of the run. -/
structure Sorting.Within (g : Digraph α) (s : SortState α) (w : Waiting α) : Prop where
  /-- The run would go on as known. -/
  underway : g.Underway s.done (s.queue ++ (Waiting.settle s.ahead w).1)
    (Waiting.settle s.ahead w).2
  /-- It would give the order. -/
  run_eq : s.done ++ g.run (s.queue ++ (Waiting.settle s.ahead w).1) (Waiting.settle s.ahead w).2
    = g.order
  /-- Nothing was settled ahead. -/
  count_eq : ∀ v, g.Entered v → w.count? v = some (g.outstanding s.done s.ahead v)

/-- **The invariant of the loop.** -/
structure Sorting (g : Digraph α) (s : SortState α) : Prop where
  /-- The counts are those of the unsettled arcs. -/
  counts_eq : s.counts = .ofKeys g.entered fun v ↦ (g.outstanding s.done s.ahead v : Int)
  /-- What lies ahead is counted. -/
  entered_ahead : ∀ u ∈ s.ahead, g.Entered u
  /-- The state belongs to the run. -/
  exists_within : ∃ w, Sorting.Within g s w

namespace Sorting

variable {g : Digraph α} {s : SortState α} {counts : Table α Int} {queue done ahead : List α}
  {u v : α}

/-! ### What a state holds -/

theorem get?_counts (h : g.Sorting s) (hv : g.Entered v) :
    s.counts.get? v = some (g.outstanding s.done s.ahead v : Int) := by
  rw [h.counts_eq, Table.get?_ofKeys, if_pos (mem_entered.mpr hv)]

/-- Exactly the ids that are entered have a count. -/
theorem isSome_get?_iff (h : g.Sorting s) : (s.counts.get? v).isSome ↔ g.Entered v := by
  rw [h.counts_eq, Table.get?_ofKeys, ← mem_entered]
  by_cases hv : v ∈ g.entered
  · simp [hv]
  · simp [hv]

theorem eq_of_get? (h : g.Sorting s) {k : Int} (hk : s.counts.get? v = some k) :
    k = (g.outstanding s.done s.ahead v : Int) := by
  have hv : g.Entered v := h.isSome_get?_iff.mp (hk ▸ Option.isSome_some)
  exact Option.some_inj.mp (hk.symm.trans (h.get?_counts hv))

theorem nodup_done (h : g.Sorting s) : s.done.Nodup := by
  obtain ⟨w, hw⟩ := h.exists_within
  exact hw.underway.nodup.of_append_left

/-- All ids that leave the queue are entered, and each leaves it once. -/
theorem length_done_lt (h : g.Sorting ⟨counts, v :: queue, done, ahead⟩) :
    done.length < g.entered.length := by
  obtain ⟨w, hw⟩ := h.exists_within
  have hle := (hw.underway.nodup.subperm fun u hu ↦
    mem_entered.mpr ((hw.underway.mem_iff u).mp hu).1).length_le
  simp only [List.length_append, List.length_cons] at hle
  omega

/-! ### Turns -/

/-- Settling one arc in earnest leaves less to be settled in thought, and the same comes of it. -/
theorem Within.arrive {w : Waiting α} (h : Within g ⟨counts, queue, done, u :: ahead⟩ w)
    (hu : g.Entered u) (counts' : Table α Int) :
    Within g ⟨counts', if g.outstanding done ahead u = 0 then queue ++ [u] else queue, done, ahead⟩
      (Waiting.arrive u w) := by
  have hcount : w.count? u = some (g.outstanding done ahead u + 1) :=
    (h.count_eq u hu).trans (congrArg some (g.outstanding_cons_self done ahead u))
  -- the arc lets `u` join now exactly if it would have let it join in thought
  have hlast : w.count? u = some 1 ↔ g.outstanding done ahead u = 0 := by
    rw [hcount, Option.some_inj, Nat.add_eq_right]
  have hqueue : (if g.outstanding done ahead u = 0 then queue ++ [u] else queue)
      ++ (Waiting.settle ahead (Waiting.arrive u w)).1
        = queue ++ (Waiting.settle (u :: ahead) w).1 := by
    simp only [Waiting.settle, hlast]
    split
    · rw [List.append_assoc, List.singleton_append]
    · rfl
  refine ⟨?_, ?_, fun v hv ↦ ?_⟩
  · rw [hqueue]
    exact h.underway
  · rw [hqueue]
    exact h.run_eq
  · rw [Waiting.count?_arrive]
    by_cases hvu : v = u
    · rw [if_pos hvu, hvu, hcount, Option.map_some, Nat.add_sub_cancel]
    · rw [if_neg hvu, h.count_eq v hv, outstanding_cons_of_ne g done ahead hvu]

/-- **An arc is settled.** -/
theorem settle (h : g.Sorting ⟨counts, queue, done, u :: ahead⟩) :
    ∃ k, counts.get? u = some k ∧
      g.Sorting ⟨counts.put u (k - 1), if k - 1 = 0 then queue ++ [u] else queue, done, ahead⟩ := by
  have hu : g.Entered u := h.entered_ahead u List.mem_cons_self
  have hcounts : counts = .ofKeys g.entered fun v ↦ (g.outstanding done (u :: ahead) v : Int) :=
    h.counts_eq
  have hdown : (g.outstanding done (u :: ahead) u : Int) - 1 = g.outstanding done ahead u := by
    rw [outstanding_cons_self]
    omega
  obtain ⟨w, hw⟩ := h.exists_within
  refine ⟨g.outstanding done (u :: ahead) u, h.get?_counts hu, ?_⟩
  rw [hdown]
  refine ⟨?_, fun x hx ↦ h.entered_ahead x (List.mem_cons_of_mem u hx), Waiting.arrive u w, ?_⟩
  · rw [hcounts]
    exact g.put_outstanding done ahead hu
  · simpa only [Int.natCast_eq_zero] using hw.arrive hu _

/-- **An id leaves the queue**, and its arcs lie ahead. -/
theorem take (h : g.Sorting ⟨counts, v :: queue, done, []⟩) :
    g.Sorting ⟨counts, queue, done ++ [v], g.successors v⟩ := by
  obtain ⟨w, hw⟩ := h.exists_within
  have hunderway : g.Underway done (v :: queue) w := by
    simpa [Waiting.settle] using hw.underway
  have hconcat : ∀ u, g.outstanding (done ++ [v]) (g.successors v) u = g.unsettled done u :=
    unsettled_concat hunderway.notMem_done
  refine ⟨?_, fun u hu ↦ entered_of_arc (mem_successors.mp hu), w, hunderway.step, ?_,
    fun u hu ↦ ?_⟩
  · simpa only [hconcat, outstanding_nil] using h.counts_eq
  · rw [← hw.run_eq]
    simp [Waiting.settle, run]
  · rw [hunderway.count_eq u hu, hconcat]

/-- **The queue is empty.** -/
theorem finish (h : g.Sorting ⟨counts, [], done, []⟩) : done = g.order := by
  obtain ⟨w, hw⟩ := h.exists_within
  simpa [Waiting.settle, run] using hw.run_eq

/-- How far the loop has still to go. -/
def size (g : Digraph α) (s : SortState α) : Nat ×ₗ Nat :=
  toLex (g.entered.length - s.done.length, s.ahead.length)

/-- **One turn.** -/
theorem turn (h : g.Sorting s) :
    (g.orderLoop.turn s).Sound g.Sorting (size g) g.order s := by
  obtain ⟨counts, queue, done, ahead⟩ := s
  cases ahead with
  | cons u ahead =>
    obtain ⟨k, hk, hnext⟩ := h.settle
    simp only [orderLoop, sortTurn, hk]
    exact ⟨hnext, Prod.Lex.toLex_lt_toLex.mpr (.inr ⟨rfl, Nat.lt_succ_self _⟩)⟩
  | nil =>
    cases queue with
    | nil => exact h.finish
    | cons v queue =>
      have hlt := h.length_done_lt
      simp only [orderLoop, sortTurn, getD_adjacency_nil]
      refine ⟨h.take, Prod.Lex.toLex_lt_toLex.mpr (.inl ?_)⟩
      simp only [List.length_append, List.length_singleton]
      omega

/-- **The first state.** -/
theorem start (g : Digraph α) : ∃ s, g.orderLoop.start = some s ∧ g.Sorting s := by
  have hqueue : (g.tally.filter fun p ↦ p.2 = 0).map Prod.fst = g.sources := by
    rw [tally_eq, sources_eq, Table.ofKeys, List.filter_map, List.map_map]
    simp [Function.comp_def]
  refine ⟨_, rfl, ?_, fun u hu ↦ absurd hu List.not_mem_nil, g.waiting, ?_, ?_, fun v hv ↦ ?_⟩
  · simp [tally_eq, outstanding_nil]
  · simpa [Waiting.settle, hqueue] using g.underway_sources
  · simp [Waiting.settle, hqueue, order]
  · simp [count?_waiting hv, outstanding_nil]

end Sorting

/-! ## The run -/

/-- **The loop ends with the order**, and no lookup fails. -/
theorem orderLoop_run (g : Digraph α) :
    g.orderLoop.Ends g.order ∧ g.orderLoop.NeverFails ∧
      ∀ s, g.orderLoop.Passes s → g.Sorting s := by
  obtain ⟨s, hs, hinv⟩ := Sorting.start g
  exact Machine.run hs hinv fun _ ↦ Sorting.turn

end Digraph

end AgentFlow
