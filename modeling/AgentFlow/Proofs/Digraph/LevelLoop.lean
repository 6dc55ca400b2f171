import AgentFlow.Proofs.Digraph.Level
import AgentFlow.Proofs.Digraph.Table
import AgentFlow.Proofs.Machine

/-!
# The loop of the levels

Levels are computed by a loop on a queue whose entries are vertices with levels. A turn takes an
entry off the queue. If its vertex has a level already nothing else happens; if not, the level is
entered in a table, and the children of the vertex, which are looked up, join the queue. The queue
starts with the vertices whose count of arcs is zero, and these counts are looked up as well.

Entries are never compared before they join, so a vertex may stand in the queue several times. What
bounds the queue all the same is that an arc adds an entry only when its source gets its level, and
that is once (`Levelling.length_le`): no more entries leave the queue than there are vertices and
arcs together.
-/

namespace AgentFlow

namespace Digraph

variable {α : Type} [DecidableEq α]

/-! ## The loop -/

/-- A state of the loop. -/
structure LevelState (α : Type) where
  /-- The children of vertices, which stay as they are. -/
  children : Table α (List α)
  /-- The levels of vertices. -/
  levels : Table α Nat
  /-- The entries that wait. -/
  queue : List (α × Nat)
  /-- The entries that have left the queue, in order. -/
  left : List (α × Nat)

/-- Takes the next entry off the queue. -/
def levelTurn (s : LevelState α) : Turn (LevelState α) (List (α × Nat)) :=
  match s.queue with
  | [] => .returns s.levels
  | (v, level) :: queue =>
    let left := s.left ++ [(v, level)]
    if (s.levels.get? v).isSome then .next { s with queue := queue, left := left }
    else
      match s.children.get? v with
      | none => .fails
      | some us =>
        let levels := s.levels.put v level
        let met := us.filter fun u ↦ (levels.get? u).isNone
        .next ⟨s.children, levels, queue ++ met.map fun u ↦ (u, level + 1), left⟩

/-- Adds a vertex to the queue with level zero if its count, which is looked up, is zero. -/
def addRoot? (g : Digraph α) (queue : List (α × Nat)) (v : α) : Option (List (α × Nat)) :=
  (g.tally.get? v).map fun k ↦ if k = 0 then queue ++ [(v, 0)] else queue

theorem addRoot?_eq (g : Digraph α) {v : α} (hv : g.Entered v) (queue : List (α × Nat)) :
    g.addRoot? queue v = some (if g.inDegree v = 0 then queue ++ [(v, 0)] else queue) := by
  rw [addRoot?, tally_eq, Table.get?_ofKeys, if_pos (mem_entered.mpr hv), Option.map_some]
  simp only [Int.natCast_eq_zero]

theorem foldlM_addRoot? (g : Digraph α) {vs : List α} (hvs : vs ⊆ g.vertices)
    (queue : List (α × Nat)) :
    vs.foldlM g.addRoot? queue
      = some (queue ++ (vs.filter fun v ↦ g.inDegree v = 0).map fun v ↦ (v, 0)) := by
  induction vs generalizing queue with
  | nil => simp
  | cons v vs ih =>
    rw [List.foldlM_cons, g.addRoot?_eq (.inl (hvs List.mem_cons_self)), Option.bind_eq_bind,
      Option.bind_some, ih fun u hu ↦ hvs (List.mem_cons_of_mem v hu)]
    by_cases hzero : g.inDegree v = 0
    · simp [hzero]
    · simp [hzero]

/-- The vertices whose count is zero, with level zero. -/
def rootQueue? (g : Digraph α) : Option (List (α × Nat)) := g.vertices.foldlM g.addRoot? []

/-- **The first queue** holds the vertices that no arc enters; no lookup fails. -/
theorem rootQueue?_eq (g : Digraph α) : g.rootQueue? = some (g.roots.map fun v ↦ (v, 0)) :=
  g.foldlM_addRoot? (List.Subset.refl _) []

/-- **The loop of the levels.** -/
def levelLoop (g : Digraph α) : Machine (LevelState α) (List (α × Nat)) where
  start := do
    let children ← g.children?
    let queue ← g.rootQueue?
    return ⟨children, [], queue, []⟩
  turn := levelTurn

/-! ## The invariant -/

/-- One more source adds as many arcs as it has neighbours. -/
theorem countP_source_concat (g : Digraph α) {ks : List α} {v : α} (hv : v ∉ ks) :
    (g.arcs.countP fun a ↦ a.1 ∈ ks ++ [v])
      = (g.arcs.countP fun a ↦ a.1 ∈ ks) + (g.successors v).length := by
  rw [successors, List.length_map]
  induction g.arcs with
  | nil => rfl
  | cons a arcs ih =>
    simp only [List.countP_cons, List.filter_cons, ih]
    by_cases ha : a.1 = v
    · simp [ha, hv, Nat.add_assoc]
    · simp [ha, Nat.add_right_comm]

/-- **The invariant of the loop.** -/
structure Levelling (g : Digraph α) (s : LevelState α) : Prop where
  /-- The children are those of all vertices. -/
  children_eq : s.children = .ofKeys g.vertices.eraseDups g.childrenOf
  /-- The state belongs to the run that gives the levels. -/
  exists_spreading : ∃ fresh, g.Spreading s.levels fresh s.queue ∧
    s.levels ++ g.spread fresh s.queue = g.levels
  /-- What was in the queue came from a vertex or from an arc whose source has its level. -/
  length_le : s.left.length + s.queue.length
    ≤ g.vertices.length + g.arcs.countP fun a ↦ a.1 ∈ s.levels.map Prod.fst

namespace Levelling

variable {g : Digraph α} {s : LevelState α} {children : Table α (List α)} {levels : Table α Nat}
  {queue left : List (α × Nat)} {v : α} {level : Nat}

/-- No more entries leave the queue than there are vertices and arcs. -/
theorem length_left_le (h : g.Levelling s) : s.left.length ≤ g.vertices.length + g.arcs.length := by
  have hle := h.length_le
  have hcount : g.arcs.countP (fun a ↦ a.1 ∈ s.levels.map Prod.fst) ≤ g.arcs.length :=
    List.countP_le_length
  omega

theorem length_levels_le (h : g.Levelling s) : s.levels.length ≤ g.vertices.length := by
  obtain ⟨fresh, hfresh, -⟩ := h.exists_spreading
  rw [← List.length_map Prod.fst]
  refine (hfresh.nodup_done.subperm fun u hu ↦ ?_).length_le
  obtain ⟨p, hp, rfl⟩ := List.mem_map.mp hu
  exact (hfresh.fromRoot p (List.mem_append_left _ hp)).mem_vertices

/-! ### Turns -/

/-- **A vertex that has a level is dropped.** -/
theorem drop (h : g.Levelling ⟨children, levels, (v, level) :: queue, left⟩)
    (hv : v ∈ levels.map Prod.fst) :
    g.Levelling ⟨children, levels, queue, left ++ [(v, level)]⟩ := by
  obtain ⟨fresh, hfresh, heq⟩ := h.exists_spreading
  have hmem : v ∉ fresh := fun hmem ↦ ((hfresh.mem_fresh_iff v).mp hmem).2 hv
  refine ⟨h.children_eq, ⟨fresh, hfresh.skip hmem, ?_⟩, ?_⟩
  · rw [← heq, spread, if_neg hmem]
  · have hle := h.length_le
    simp only [List.length_append, List.length_cons, List.length_nil] at hle ⊢
    omega

/-- The children that join the queue are the fresh neighbours. -/
theorem filter_childrenOf {done : Table α Nat} {fresh : List α}
    (hfresh : ∀ u, u ∈ fresh ↔ u ∈ g.vertices ∧ u ∉ done.map Prod.fst) (v : α) :
    ((g.childrenOf v).filter fun u ↦ (done.get? u).isNone)
      = (g.successors v).filter (· ∈ fresh) := by
  rw [childrenOf, List.filter_filter]
  refine List.filter_congr fun u _ ↦ ?_
  rw [Bool.eq_iff_iff, Bool.and_eq_true, Option.isNone_iff_eq_none, Table.get?_eq_none_iff,
    decide_eq_true_iff, decide_eq_true_iff, hfresh, and_comm]

/-- **A vertex gets its level**, and its children without one join the queue. -/
theorem visit (h : g.Levelling ⟨children, levels, (v, level) :: queue, left⟩)
    (hv : v ∉ levels.map Prod.fst) :
    ∃ us, children.get? v = some us ∧
      g.Levelling ⟨children, levels.put v level,
        queue ++ (us.filter fun u ↦ ((levels.put v level).get? u).isNone).map fun u ↦
          (u, level + 1),
        left ++ [(v, level)]⟩ := by
  obtain ⟨fresh, hfresh, heq⟩ := h.exists_spreading
  have hvertex : v ∈ g.vertices := hfresh.fromRoot_head.mem_vertices
  have hmem : v ∈ fresh := (hfresh.mem_fresh_iff v).mpr ⟨hvertex, hv⟩
  have hvisit := hfresh.visit hmem
  refine ⟨g.childrenOf v, ?_, ?_⟩
  · rw [show children = _ from h.children_eq, Table.get?_ofKeys,
      if_pos (List.mem_eraseDups.mpr hvertex)]
  rw [Table.put_of_notMem hv, filter_childrenOf hvisit.mem_fresh_iff]
  refine ⟨h.children_eq, ⟨fresh.erase v, hvisit, ?_⟩, ?_⟩
  · rw [← heq, spread, if_pos hmem]
    simp
  · -- the entries that join are no more than the arcs out of the vertex
    have hle := h.length_le
    have hshort := List.length_filter_le (· ∈ fresh.erase v) (g.successors v)
    have hcount := g.countP_source_concat hv
    simp only [List.map_append, List.map_singleton, hcount, List.length_append,
      List.length_map, List.length_cons, List.length_nil] at hle ⊢
    omega

/-- **The queue is empty.** -/
theorem finish (h : g.Levelling ⟨children, levels, [], left⟩) : levels = g.levels := by
  obtain ⟨fresh, -, heq⟩ := h.exists_spreading
  simpa [spread] using heq

/-- How far the loop has still to go. -/
def size (g : Digraph α) (s : LevelState α) : Nat ×ₗ Nat :=
  toLex (g.vertices.length - s.levels.length, s.queue.length)

/-- **One turn.** -/
theorem turn (h : g.Levelling s) :
    (g.levelLoop.turn s).Sound g.Levelling (size g) g.levels s := by
  obtain ⟨children, levels, queue, left⟩ := s
  cases queue with
  | nil => exact h.finish
  | cons entry queue =>
    obtain ⟨v, level⟩ := entry
    by_cases hv : v ∈ levels.map Prod.fst
    · simp only [levelLoop, levelTurn, if_pos (Table.isSome_get?_iff.mpr hv)]
      exact ⟨h.drop hv, Prod.Lex.toLex_lt_toLex.mpr (.inr ⟨rfl, Nat.lt_succ_self _⟩)⟩
    · obtain ⟨us, hus, hnext⟩ := h.visit hv
      have hle := hnext.length_levels_le
      simp only [levelLoop, levelTurn, if_neg (hv ∘ Table.isSome_get?_iff.mp), hus]
      refine ⟨hnext, Prod.Lex.toLex_lt_toLex.mpr (.inl ?_)⟩
      simp only [Table.put_of_notMem hv, List.length_append, List.length_singleton] at hle ⊢
      omega

/-- **The first state.** -/
theorem start (g : Digraph α) : ∃ s, g.levelLoop.start = some s ∧ g.Levelling s := by
  refine ⟨⟨.ofKeys g.vertices.eraseDups g.childrenOf, [], g.roots.map fun v ↦ (v, 0), []⟩, ?_, rfl,
    ⟨g.vertices.eraseDups, g.spreading_roots, rfl⟩, ?_⟩
  · simp [levelLoop, children?_eq, rootQueue?_eq]
  · simp only [List.length_nil, List.length_map, roots, Nat.zero_add]
    exact (List.length_filter_le _ _).trans (Nat.le_add_right _ _)

end Levelling

/-! ## The run -/

/-- **The loop ends with the levels**, and no lookup fails. -/
theorem levelLoop_run (g : Digraph α) :
    g.levelLoop.Ends g.levels ∧ g.levelLoop.NeverFails ∧
      ∀ s, g.levelLoop.Passes s → g.Levelling s := by
  obtain ⟨s, hs, hinv⟩ := Levelling.start g
  exact Machine.run hs hinv fun _ ↦ Levelling.turn

end Digraph

end AgentFlow
