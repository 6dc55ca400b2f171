import AgentFlow.Digraph.Level
import AgentFlow.Proofs.Digraph.Order
import Mathlib.Order.Bounds.Defs

/-!
# What levels say

The level of a vertex is the length of a shortest path to it from a vertex that no arc enters
(`isLeast_level`). Paths here go through vertices only, as the queue does, whereas arcs from anywhere
keep a vertex from being a start.

The queue knows nothing of lengths, so the statement rests on what the queue looks like
(`Spreading`). It may hold a vertex several times, with different levels, of which the first one to
leave counts. That this one is the least is the usual observation about such queues: the levels that
have left and those that wait never go down, and the waiting ones differ by one at most, so what is
added behind them, one level further than what has just left, keeps both.

The invariant is told of what has left the queue and what waits in it together. What is dropped from
the queue because it has a level already is made up for by that level, which is not greater.
-/

namespace AgentFlow

namespace Digraph

variable {α : Type}

/-! ## Paths with their lengths -/

/-- There is a path of `n` arcs from `u` to `v` that meets vertices only. -/
inductive Walk (g : Digraph α) (u : α) : α → Nat → Prop
  /-- A vertex is a path by itself. -/
  | nil : u ∈ g.vertices → Walk g u u 0
  /-- A path goes on along an arc to a vertex. -/
  | concat {v w : α} {n : Nat} : Walk g u v n → g.Arc v w → w ∈ g.vertices → Walk g u w (n + 1)

/-- There is a path of `n` arcs to `v`, through vertices only, from one that no arc enters. -/
def FromRoot (g : Digraph α) (v : α) (n : Nat) : Prop := ∃ u, (∀ t, ¬g.Arc t u) ∧ g.Walk u v n

variable {g : Digraph α} {u v : α} {n : Nat}

theorem Walk.mem_vertices (h : g.Walk u v n) : v ∈ g.vertices := by
  cases h with
  | nil hu => exact hu
  | concat _ _ hv => exact hv

theorem FromRoot.concat (h : g.FromRoot u n) (ha : g.Arc u v) (hv : v ∈ g.vertices) :
    g.FromRoot v (n + 1) := by
  obtain ⟨t, ht, hwalk⟩ := h
  exact ⟨t, ht, hwalk.concat ha hv⟩

theorem FromRoot.mem_vertices (h : g.FromRoot v n) : v ∈ g.vertices := by
  obtain ⟨_, _, hwalk⟩ := h
  exact hwalk.mem_vertices

/-! ## Levels in a queue -/

/-- A list of levels gives a vertex a level that is at most `n`. -/
def Met (levels : List (α × Nat)) (v : α) (n : Nat) : Prop := ∃ k ≤ n, (v, k) ∈ levels

theorem Met.mono {l l' : List (α × Nat)} (h : Met l v n) (hsub : l ⊆ l') : Met l' v n := by
  obtain ⟨k, hk, hmem⟩ := h
  exact ⟨k, hk, hsub hmem⟩

/-- The levels that have left a queue and those that wait in it never go down, and those that wait
differ by one at most. -/
structure Graded (done queue : List (α × Nat)) : Prop where
  /-- Levels never go down. -/
  sorted : (done ++ queue).Pairwise fun p q ↦ p.2 ≤ q.2
  /-- The levels that wait differ by one at most. -/
  span : ∀ p ∈ queue, ∀ q ∈ queue, p.2 ≤ q.2 + 1

namespace Graded

variable {done queue new : List (α × Nat)} {level : Nat}

theorem le_of_mem_done (h : Graded done ((v, level) :: queue)) {p : α × Nat} (hp : p ∈ done) :
    p.2 ≤ level :=
  (List.pairwise_append.mp h.sorted).2.2 p hp (v, level) List.mem_cons_self

theorem le_of_mem_queue (h : Graded done ((v, level) :: queue)) {p : α × Nat} (hp : p ∈ queue) :
    level ≤ p.2 :=
  (List.pairwise_cons.mp (List.pairwise_append.mp h.sorted).2.1).1 p hp

theorem skip (h : Graded done ((v, level) :: queue)) : Graded done queue where
  sorted := h.sorted.sublist ((List.sublist_cons_self _ _).append_left _)
  span p hp q hq := h.span p (List.mem_cons_of_mem _ hp) q (List.mem_cons_of_mem _ hq)

/-- What is one level further than what leaves the queue may be added behind it. -/
theorem visit (h : Graded done ((v, level) :: queue)) (hnew : ∀ p ∈ new, p.2 = level + 1) :
    Graded (done ++ [(v, level)]) (queue ++ new) where
  sorted := by
    have hle : ∀ p ∈ done ++ (v, level) :: queue, p.2 ≤ level + 1 := by
      intro p hp
      rcases List.mem_append.mp hp with hdone | hqueue
      · exact (h.le_of_mem_done hdone).trans (Nat.le_succ level)
      · exact h.span p hqueue (v, level) List.mem_cons_self
    rw [← List.append_assoc, ← List.append_cons]
    refine List.pairwise_append.mpr ⟨h.sorted, ?_, fun p hp q hq ↦ ?_⟩
    · refine List.pairwise_of_forall_mem_list fun p hp q hq ↦ ?_
      rw [hnew p hp, hnew q hq]
    · rw [hnew q hq]
      exact hle p hp
  span p hp q hq := by
    rcases List.mem_append.mp hq with hqueue | hq
    · rcases List.mem_append.mp hp with hp | hp
      · exact h.span p (List.mem_cons_of_mem _ hp) q (List.mem_cons_of_mem _ hqueue)
      · rw [hnew p hp]
        exact Nat.succ_le_succ (h.le_of_mem_queue hqueue)
    · rw [hnew q hq]
      rcases List.mem_append.mp hp with hp | hp
      · exact (h.span p (List.mem_cons_of_mem _ hp) (v, level) List.mem_cons_self).trans
          (Nat.le_succ _)
      · rw [hnew p hp]
        exact Nat.le_succ _

end Graded

section Neighbours

variable [DecidableEq α] {rest : List α} {level : Nat}

/-- The fresh neighbours of a vertex, with the next level. -/
def ahead (g : Digraph α) (v : α) (level : Nat) (rest : List α) : List (α × Nat) :=
  ((g.successors v).filter (· ∈ rest)).map fun u ↦ (u, level + 1)

theorem mem_ahead {p : α × Nat} :
    p ∈ ahead g v level rest ↔ g.Arc v p.1 ∧ p.1 ∈ rest ∧ p.2 = level + 1 := by
  simp only [ahead, List.mem_map, List.mem_filter, mem_successors, decide_eq_true_iff]
  constructor
  · rintro ⟨u, ⟨ha, hrest⟩, rfl⟩
    exact ⟨ha, hrest, rfl⟩
  · rintro ⟨ha, hrest, hlevel⟩
    exact ⟨p.1, ⟨ha, hrest⟩, Prod.ext rfl hlevel.symm⟩

end Neighbours

/-! ## The invariant -/

/-- **The invariant of the queue.** `done` are the vertices that have left it with a level, in order,
and `fresh` are the vertices that have none yet. -/
structure Spreading (g : Digraph α) (done : List (α × Nat)) (fresh : List α)
    (queue : List (α × Nat)) : Prop where
  /-- Fresh vertices are listed once. -/
  nodup_fresh : fresh.Nodup
  /-- A vertex is fresh or done. -/
  mem_fresh_iff : ∀ v, v ∈ fresh ↔ v ∈ g.vertices ∧ v ∉ done.map Prod.fst
  /-- No vertex is done twice. -/
  nodup_done : (done.map Prod.fst).Nodup
  /-- Levels come in order. -/
  graded : Graded done queue
  /-- Levels are lengths of paths. -/
  fromRoot : ∀ p ∈ done ++ queue, g.FromRoot p.1 p.2
  /-- The starts of paths have been met. -/
  met_root : ∀ v ∈ g.vertices, (∀ u, ¬g.Arc u v) → Met (done ++ queue) v 0
  /-- What is one arc further than a vertex that is done has been met. -/
  met_arc : ∀ p ∈ done, ∀ v ∈ g.vertices, g.Arc p.1 v → Met (done ++ queue) v (p.2 + 1)

namespace Spreading

variable {done queue : List (α × Nat)} {fresh : List α} {level : Nat}

theorem fromRoot_head (h : g.Spreading done fresh ((v, level) :: queue)) : g.FromRoot v level :=
  h.fromRoot (v, level) (List.mem_append_right _ List.mem_cons_self)

/-- A vertex that is not fresh has a level already, and none that is greater. -/
theorem met_of_notMem_fresh (h : g.Spreading done fresh ((v, level) :: queue)) (hu : u ∈ g.vertices)
    (hfresh : u ∉ fresh) : Met done u level := by
  have hdone : u ∈ done.map Prod.fst := by
    by_contra hnot
    exact hfresh ((h.mem_fresh_iff u).mpr ⟨hu, hnot⟩)
  obtain ⟨⟨_, k⟩, hk, rfl⟩ := List.mem_map.mp hdone
  exact ⟨k, h.graded.le_of_mem_done hk, hk⟩

/-- **A vertex that has a level is dropped.** -/
theorem skip (h : g.Spreading done fresh ((v, level) :: queue)) (hv : v ∉ fresh) :
    g.Spreading done fresh queue := by
  have hmet : ∀ {u n}, Met (done ++ (v, level) :: queue) u n → Met (done ++ queue) u n := by
    rintro u n ⟨k, hk, hmem⟩
    rcases List.mem_append.mp hmem with hmem | hmem
    · exact ⟨k, hk, List.mem_append_left _ hmem⟩
    rcases List.mem_cons.mp hmem with heq | hmem
    · -- the level that the vertex has makes up for the entry
      obtain ⟨rfl, rfl⟩ := Prod.mk.inj heq
      obtain ⟨i, hi, hdone⟩ := h.met_of_notMem_fresh h.fromRoot_head.mem_vertices hv
      exact ⟨i, hi.trans hk, List.mem_append_left _ hdone⟩
    · exact ⟨k, hk, List.mem_append_right _ hmem⟩
  refine ⟨h.nodup_fresh, h.mem_fresh_iff, h.nodup_done, h.graded.skip, fun p hp ↦ ?_,
    fun u hu hroot ↦ hmet (h.met_root u hu hroot), fun p hp u hu ha ↦ hmet (h.met_arc p hp u hu ha)⟩
  exact h.fromRoot p (((List.sublist_cons_self _ _).append_left done).subset hp)

variable [DecidableEq α]

/-- **A fresh vertex gets its level**, and its fresh neighbours wait for the next one. -/
theorem visit (h : g.Spreading done fresh ((v, level) :: queue)) (hv : v ∈ fresh) :
    g.Spreading (done ++ [(v, level)]) (fresh.erase v)
      (queue ++ ahead g v level (fresh.erase v)) := by
  have hsplit : done ++ [(v, level)] ++ (queue ++ ahead g v level (fresh.erase v))
      = done ++ (v, level) :: queue ++ ahead g v level (fresh.erase v) := by simp
  have hnew : v ∉ done.map Prod.fst := ((h.mem_fresh_iff v).mp hv).2
  refine ⟨h.nodup_fresh.erase v, fun u ↦ ?_, ?_, h.graded.visit fun p hp ↦ (mem_ahead.mp hp).2.2,
    fun p hp ↦ ?_, fun u hu hroot ↦ ?_, fun p hp u hu ha ↦ ?_⟩
  · rw [h.nodup_fresh.mem_erase_iff, h.mem_fresh_iff, List.map_append, List.mem_append,
      List.map_singleton, List.mem_singleton]
    tauto
  · rw [List.map_append, List.map_singleton, ← List.concat_eq_append]
    exact h.nodup_done.concat hnew
  · rw [hsplit, List.mem_append] at hp
    rcases hp with hold | hp
    · exact h.fromRoot p hold
    · obtain ⟨ha, hrest, hlevel⟩ := mem_ahead.mp hp
      rw [hlevel]
      exact h.fromRoot_head.concat ha ((h.mem_fresh_iff _).mp (List.mem_of_mem_erase hrest)).1
  · rw [hsplit]
    exact (h.met_root u hu hroot).mono (List.subset_append_left _ _)
  · rw [hsplit]
    rcases List.mem_append.mp hp with hp | hp
    · exact (h.met_arc p hp u hu ha).mono (List.subset_append_left _ _)
    obtain rfl := List.mem_singleton.mp hp
    by_cases hrest : u ∈ fresh.erase v
    · exact ⟨level + 1, le_rfl, List.mem_append_right _ (mem_ahead.mpr ⟨ha, hrest, rfl⟩)⟩
    -- not fresh any more: it is `v` itself, or it was done before
    by_cases huv : u = v
    · exact ⟨level, Nat.le_succ level, by simp [huv]⟩
    · have hfresh : u ∉ fresh := fun hmem ↦
        hrest (h.nodup_fresh.mem_erase_iff.mpr ⟨huv, hmem⟩)
      obtain ⟨k, hk, hdone⟩ := h.met_of_notMem_fresh hu hfresh
      exact ⟨k, hk.trans (Nat.le_succ level),
        List.mem_append_left _ (List.mem_append_left _ hdone)⟩

/-- **A whole run** keeps the invariant, up to the empty queue. -/
theorem exists_spread (h : g.Spreading done fresh queue) :
    ∃ rest, g.Spreading (done ++ g.spread fresh queue) rest [] := by
  fun_induction spread g fresh queue generalizing done
  case case1 fresh => exact ⟨fresh, by rwa [List.append_nil]⟩
  case case2 fresh v level queue hv _ _ ih =>
    obtain ⟨rest, hrest⟩ := ih (h.visit hv)
    exact ⟨rest, by rwa [List.append_cons]⟩
  case case3 fresh v level queue hv ih => exact ih (h.skip hv)

end Spreading

/-! ## The start -/

variable [DecidableEq α]

theorem mem_roots : v ∈ g.roots ↔ v ∈ g.vertices ∧ ∀ u, ¬g.Arc u v := by
  rw [roots, List.mem_filter, decide_eq_true_iff, inDegree_eq_zero_iff]

theorem spreading_roots (g : Digraph α) :
    g.Spreading [] g.vertices.eraseDups (g.roots.map fun v ↦ (v, 0)) := by
  have hzero : ∀ p ∈ g.roots.map fun v ↦ (v, 0), p.1 ∈ g.roots ∧ p.2 = 0 := by
    intro p hp
    obtain ⟨v, hv, rfl⟩ := List.mem_map.mp hp
    exact ⟨hv, rfl⟩
  have hle : ∀ p ∈ g.roots.map fun v ↦ (v, 0), ∀ n, p.2 ≤ n := by
    intro p hp n
    rw [(hzero p hp).2]
    exact Nat.zero_le n
  refine ⟨nodup_eraseDups _, fun v ↦ ?_, List.nodup_nil, ⟨?_, fun p hp q _ ↦ hle p hp _⟩,
    fun p hp ↦ ?_, fun v hv hroot ↦ ?_, fun p hp ↦ absurd hp List.not_mem_nil⟩
  · rw [List.mem_eraseDups]
    exact (and_iff_left List.not_mem_nil).symm
  · exact List.pairwise_of_forall_mem_list fun p hp q _ ↦ hle p hp _
  · obtain ⟨hroot, hlevel⟩ := hzero p hp
    obtain ⟨hv, hnone⟩ := mem_roots.mp hroot
    rw [hlevel]
    exact ⟨p.1, hnone, .nil hv⟩
  · exact ⟨0, le_rfl, List.mem_map_of_mem (mem_roots.mpr ⟨hv, hroot⟩)⟩

/-- **The end of the run** that gives the levels. -/
theorem exists_spreading_levels (g : Digraph α) : ∃ rest, g.Spreading g.levels rest [] :=
  g.spreading_roots.exists_spread

/-! ## Levels -/

theorem nodup_levels (g : Digraph α) : (g.levels.map Prod.fst).Nodup := by
  obtain ⟨_, h⟩ := g.exists_spreading_levels
  exact h.nodup_done

theorem fromRoot_of_mem_levels (h : (v, n) ∈ g.levels) : g.FromRoot v n := by
  obtain ⟨_, hlevels⟩ := g.exists_spreading_levels
  exact hlevels.fromRoot (v, n) (List.mem_append_left _ h)

/-- By the length of the path: one arc further, a level is one greater at most. -/
theorem met_of_fromRoot (h : g.FromRoot v n) : Met g.levels v n := by
  obtain ⟨_, hlevels⟩ := g.exists_spreading_levels
  obtain ⟨u, hroot, hwalk⟩ := h
  induction hwalk with
  | nil hu => simpa using hlevels.met_root u hu hroot
  | concat hwalk ha hw ih =>
    obtain ⟨k, hk, hmem⟩ := ih
    obtain ⟨j, hj, hmem'⟩ := hlevels.met_arc _ hmem _ hw ha
    exact ⟨j, hj.trans (Nat.succ_le_succ hk), by simpa using hmem'⟩

theorem level_of_mem (h : (v, n) ∈ g.levels) : g.level v = n := by
  obtain ⟨before, after, hlevels⟩ := List.append_of_mem h
  have hnodup := g.nodup_levels
  rw [hlevels, List.map_append, List.map_cons, List.nodup_append] at hnodup
  have hlookup : List.lookup v g.levels = some n := by
    refine List.lookup_eq_some_iff.mpr ⟨before, after, hlevels, fun p hp ↦ ?_⟩
    rw [bne_iff_ne]
    exact Ne.symm (hnodup.2.2 p.1 (List.mem_map_of_mem hp) v List.mem_cons_self)
  rw [level, levelIn, hlookup, Option.getD_some]

theorem isLeast_level (h : g.FromRoot v n) : IsLeast {k | g.FromRoot v k} (g.level v) := by
  obtain ⟨k, -, hmem⟩ := met_of_fromRoot h
  rw [level_of_mem hmem]
  refine ⟨fromRoot_of_mem_levels hmem, fun j hj ↦ ?_⟩
  obtain ⟨i, hi, hmem'⟩ := met_of_fromRoot hj
  rwa [← level_of_mem hmem, level_of_mem hmem']

theorem level_eq_zero (h : ∀ n, ¬g.FromRoot v n) : g.level v = 0 := by
  have hnone : List.lookup v g.levels = none := by
    rw [List.lookup_eq_none_iff]
    rintro ⟨u, n⟩ hmem
    rw [bne_iff_ne]
    rintro rfl
    exact h n (fromRoot_of_mem_levels hmem)
  rw [level, levelIn, hnone, Option.getD_none]

/-- An arc leads one level further at most. -/
theorem level_le_of_arc (h : g.FromRoot u n) (ha : g.Arc u v) (hv : v ∈ g.vertices) :
    g.level v ≤ g.level u + 1 := by
  have hu : g.FromRoot u (g.level u) := (isLeast_level h).1
  exact (isLeast_level (hu.concat ha hv)).2 (hu.concat ha hv)

end Digraph

end AgentFlow
