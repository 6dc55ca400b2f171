import AgentFlow.Proofs.Digraph.Recursion
import AgentFlow.Proofs.Digraph.Table
import AgentFlow.Proofs.Machine

/-!
# The loop of the search for cycles

The search is computed by a loop that keeps one thing in several places. The path is a list beside
the stack of frames, its ids are a set once more, and the ids that were met are a set that only
grows. A turn looks at the next neighbour in the newest frame, takes off a frame that is used up, or
goes on to the next root when the stack is empty. Taking off a frame also takes the last id off the
path, which must not be empty; and the place of an id is looked up in the path, which must hold it.

The invariant (`Searching`) says that all these places agree, and that the state is one of
`Digraph.search`, on a list of fresh ids that is left out here: they are those that are entered and
were not met. What the search would come to from there, with the roots that are left, is what it
comes to as a whole (`Digraph.searchOn`).
-/

namespace AgentFlow

namespace Digraph

variable {α : Type} [DecidableEq α]

/-! ## The loop -/

/-- A state of the loop. -/
structure SearchState (α : Type) where
  /-- The roots that were not tried yet. -/
  roots : List α
  /-- The ids that were met. -/
  visited : Finset α
  /-- The ids that were pushed, in order. -/
  pushed : List α
  /-- The path, from the root on. -/
  path : List α
  /-- The ids of the path. -/
  onPath : Finset α
  /-- The frames, the newest first. -/
  stack : List (Frame α)

/-- Pushes an id that was not met before. -/
def SearchState.push (s : SearchState α) (adjacency : Table α (List α)) (v : α) : SearchState α :=
  { s with
    visited := insert v s.visited
    pushed := s.pushed ++ [v]
    path := s.path ++ [v]
    onPath := insert v s.onPath
    stack := (v, (adjacency.get? v).getD []) :: s.stack }

/-- Looks at the next neighbour, takes off a frame, or tries the next root. A root starts with an
empty path. -/
def searchTurn (adjacency : Table α (List α)) (s : SearchState α) :
    Turn (SearchState α) (Option (List α)) :=
  match s.stack, s.roots with
  | (v, u :: us) :: stack, _ =>
    if u ∈ s.onPath then
      if u ∈ s.path then .returns (some (s.path.drop (s.path.idxOf u) ++ [u])) else .fails
    else if u ∈ s.visited then .next { s with stack := (v, us) :: stack }
    else .next (SearchState.push { s with stack := (v, us) :: stack } adjacency u)
  | (v, []) :: stack, _ =>
    if s.path = [] then .fails
    else .next { s with path := s.path.dropLast, onPath := s.onPath.erase v, stack := stack }
  | [], v :: roots =>
    if v ∈ s.visited then .next { s with roots := roots }
    else .next (SearchState.push { s with roots := roots, path := [], onPath := ∅ } adjacency v)
  | [], [] => .returns none

/-- **The loop of the search.** -/
def cycleLoop (g : Digraph α) : Machine (SearchState α) (Option (List α)) where
  start := some ⟨g.vertices, ∅, [], [], ∅, []⟩
  turn := searchTurn (g.adjacency (.ofFill g.vertices []))

/-! ## What is left of the search -/

/-- What a search that is under way comes to, with the roots that are left. -/
def searchOn (g : Digraph α) (fresh : List α) (stack : List (Frame α)) (roots : List α) :
    Option (List α) :=
  match g.search fresh stack with
  | .cycle path => some path
  | .clear rest => g.searchRoots rest roots

section SearchOn

variable (g : Digraph α) {fresh roots us : List α} {stack : List (Frame α)} {u v : α}

theorem searchOn_nil : g.searchOn fresh [] [] = none := by
  simp only [searchOn, search, searchRoots]

theorem searchOn_root (hv : v ∈ fresh) :
    g.searchOn fresh [] (v :: roots) = g.searchOn (fresh.erase v) [(v, g.successors v)] roots := by
  have hroots : g.searchRoots fresh (v :: roots)
      = g.searchOn (fresh.erase v) [(v, g.successors v)] roots := by
    rw [searchRoots, if_pos hv]
    rfl
  rw [← hroots, searchOn, search]

theorem searchOn_skipRoot (hv : v ∉ fresh) :
    g.searchOn fresh [] (v :: roots) = g.searchOn fresh [] roots := by
  simp only [searchOn, search, searchRoots, if_neg hv]

theorem searchOn_pop :
    g.searchOn fresh ((v, []) :: stack) roots = g.searchOn fresh stack roots := by
  rw [searchOn, search, searchOn]

theorem searchOn_cycle (hu : u ∈ pathOf ((v, us) :: stack)) :
    g.searchOn fresh ((v, u :: us) :: stack) roots
      = some ((pathOf ((v, us) :: stack)).drop ((pathOf ((v, us) :: stack)).idxOf u) ++ [u]) := by
  rw [← closePath_eq_drop, searchOn, search]
  simp only [pathOf, List.map_cons] at hu ⊢
  rw [if_pos hu]

theorem searchOn_descend (hu : u ∉ pathOf ((v, us) :: stack)) (hfresh : u ∈ fresh) :
    g.searchOn fresh ((v, u :: us) :: stack) roots
      = g.searchOn (fresh.erase u) ((u, g.successors u) :: (v, us) :: stack) roots := by
  rw [searchOn, search]
  simp only [pathOf, List.map_cons] at hu ⊢
  rw [if_neg hu, if_pos hfresh, searchOn]

theorem searchOn_skip (hu : u ∉ pathOf ((v, us) :: stack)) (hfresh : u ∉ fresh) :
    g.searchOn fresh ((v, u :: us) :: stack) roots = g.searchOn fresh ((v, us) :: stack) roots := by
  rw [searchOn, search]
  simp only [pathOf, List.map_cons] at hu ⊢
  rw [if_neg hu, if_neg hfresh, searchOn]

end SearchOn

/-! ## The invariant -/

/-- What is kept in several places is the same in all of them. -/
structure Agreeing (g : Digraph α) (s : SearchState α) : Prop where
  /-- The roots that are left are vertices. -/
  roots_subset : s.roots ⊆ g.vertices
  /-- What was met was pushed. -/
  visited_eq : s.visited = s.pushed.toFinset
  /-- No id is pushed twice. -/
  nodup_pushed : s.pushed.Nodup
  /-- What is pushed is entered. -/
  entered_pushed : ∀ v ∈ s.pushed, g.Entered v
  /-- The path is that of the stack. -/
  path_eq : s.path = pathOf s.stack
  /-- Its ids are in the set. -/
  onPath_eq : s.onPath = s.path.toFinset

/-- The state belongs to a search whose fresh ids are these. -/
structure Searching.Within (g : Digraph α) (s : SearchState α) (fresh : List α) : Prop where
  /-- The search would go on as known. -/
  exploring : g.Exploring fresh none s.stack
  /-- What was not met is fresh. -/
  mem_fresh_iff : ∀ v, v ∈ fresh ↔ g.Entered v ∧ v ∉ s.pushed
  /-- It would come to the result. -/
  searchOn_eq : g.searchOn fresh s.stack s.roots = g.findCycle?

/-- **The invariant of the loop.** -/
structure Searching (g : Digraph α) (s : SearchState α) : Prop extends g.Agreeing s where
  /-- The state belongs to the search. -/
  exists_within : ∃ fresh, Searching.Within g s fresh

section Turns

variable {g : Digraph α} {s : SearchState α} {roots pushed path us : List α}
  {visited onPath : Finset α} {stack : List (Frame α)} {u v : α}

theorem Agreeing.push (h : g.Agreeing s) (hv : g.Entered v) (hpushed : v ∉ s.pushed)
    (adjacency : Table α (List α)) : g.Agreeing (s.push adjacency v) where
  roots_subset := h.roots_subset
  visited_eq := by
    simp [SearchState.push, h.visited_eq]
  nodup_pushed := by
    rw [SearchState.push, ← List.concat_eq_append]
    exact h.nodup_pushed.concat hpushed
  entered_pushed u hu := by
    rcases List.mem_append.mp hu with hu | hu
    · exact h.entered_pushed u hu
    · exact List.mem_singleton.mp hu ▸ hv
  path_eq := by
    rw [SearchState.push, h.path_eq, pathOf_cons]
  onPath_eq := by
    simp [SearchState.push, h.onPath_eq]

/-- Every push is of an id that is entered, and of another one each time. -/
theorem Agreeing.length_pushed_le (h : g.Agreeing s) : s.pushed.length ≤ g.entered.length :=
  (h.nodup_pushed.subperm fun u hu ↦ mem_entered.mpr (h.entered_pushed u hu)).length_le

namespace Searching

/-- No id stands on the path twice. -/
theorem nodup_path (h : g.Searching s) : s.path.Nodup := by
  obtain ⟨fresh, hfresh⟩ := h.exists_within
  rw [h.path_eq, pathOf, List.nodup_reverse]
  exact hfresh.exploring.nodup_path

theorem Within.mem_fresh_erase_iff {fresh : List α} (h : Within g s fresh) (w : α) :
    w ∈ fresh.erase v ↔ g.Entered w ∧ w ∉ s.pushed ++ [v] := by
  rw [h.exploring.nodup_fresh.mem_erase_iff, h.mem_fresh_iff, List.mem_append, List.mem_singleton]
  tauto

/-! ### Turns -/

/-- **A root starts a path.** -/
theorem root (h : g.Searching ⟨v :: roots, visited, pushed, path, onPath, []⟩)
    (hv : v ∉ pushed) :
    g.Searching (SearchState.push ⟨roots, visited, pushed, [], ∅, []⟩
      (g.adjacency (.ofFill g.vertices [])) v) := by
  obtain ⟨fresh, hfresh⟩ := h.exists_within
  have hroot : v ∈ g.vertices := h.roots_subset List.mem_cons_self
  have hmem : v ∈ fresh := (hfresh.mem_fresh_iff v).mpr ⟨.inl hroot, hv⟩
  have hagree : g.Agreeing ⟨roots, visited, pushed, [], ∅, []⟩ :=
    { h.toAgreeing with
      roots_subset := fun u hu ↦ h.roots_subset (List.mem_cons_of_mem v hu)
      path_eq := rfl
      onPath_eq := rfl }
  refine ⟨hagree.push (.inl hroot) hv _, fresh.erase v, ?_, hfresh.mem_fresh_erase_iff, ?_⟩
  · rw [SearchState.push, getD_adjacency_ofFill]
    exact hfresh.exploring.start hmem hroot
  · rw [SearchState.push, getD_adjacency_ofFill]
    exact (g.searchOn_root hmem).symm.trans hfresh.searchOn_eq

/-- A root that was met before is passed over. -/
theorem skipRoot (h : g.Searching ⟨v :: roots, visited, pushed, path, onPath, []⟩)
    (hv : v ∈ pushed) : g.Searching ⟨roots, visited, pushed, path, onPath, []⟩ := by
  obtain ⟨fresh, hfresh⟩ := h.exists_within
  have hmem : v ∉ fresh := fun hmem ↦ ((hfresh.mem_fresh_iff v).mp hmem).2 hv
  refine ⟨{ h.toAgreeing with
      roots_subset := fun u hu ↦ h.roots_subset (List.mem_cons_of_mem v hu) }, fresh,
    hfresh.exploring, hfresh.mem_fresh_iff, ?_⟩
  exact (g.searchOn_skipRoot hmem).symm.trans hfresh.searchOn_eq

/-- **A fresh neighbour is descended into.** -/
theorem descend (h : g.Searching ⟨roots, visited, pushed, path, onPath, (v, u :: us) :: stack⟩)
    (hpath : u ∉ path) (hu : u ∉ pushed) :
    g.Searching (SearchState.push ⟨roots, visited, pushed, path, onPath, (v, us) :: stack⟩
      (g.adjacency (.ofFill g.vertices [])) u) := by
  obtain ⟨fresh, hfresh⟩ := h.exists_within
  have hentered : g.Entered u := hfresh.exploring.entered_head
  have hmem : u ∈ fresh := (hfresh.mem_fresh_iff u).mpr ⟨hentered, hu⟩
  have hagree : g.Agreeing ⟨roots, visited, pushed, path, onPath, (v, us) :: stack⟩ :=
    { h.toAgreeing with }
  refine ⟨hagree.push hentered hu _, fresh.erase u, ?_, hfresh.mem_fresh_erase_iff, ?_⟩
  · rw [SearchState.push, getD_adjacency_ofFill]
    exact hfresh.exploring.look.descend hmem
  · rw [SearchState.push, getD_adjacency_ofFill]
    have hpath' : u ∉ pathOf ((v, us) :: stack) := h.path_eq ▸ hpath
    exact (g.searchOn_descend hpath' hmem).symm.trans hfresh.searchOn_eq

/-- A neighbour that was met before and is not on the path is passed over. -/
theorem skip (h : g.Searching ⟨roots, visited, pushed, path, onPath, (v, u :: us) :: stack⟩)
    (hpath : u ∉ path) (hu : u ∈ pushed) :
    g.Searching ⟨roots, visited, pushed, path, onPath, (v, us) :: stack⟩ := by
  obtain ⟨fresh, hfresh⟩ := h.exists_within
  have hmem : u ∉ fresh := fun hmem ↦ ((hfresh.mem_fresh_iff u).mp hmem).2 hu
  have hpath' : u ∉ pathOf ((v, us) :: stack) := h.path_eq ▸ hpath
  refine ⟨{ h.toAgreeing with }, fresh, hfresh.exploring.skip hpath' hmem, hfresh.mem_fresh_iff, ?_⟩
  exact (g.searchOn_skip hpath' hmem).symm.trans hfresh.searchOn_eq

/-- **A frame that is used up is taken off**, with the last id of the path. -/
theorem pop (h : g.Searching ⟨roots, visited, pushed, path, onPath, (v, []) :: stack⟩) :
    path ≠ [] ∧
      g.Searching ⟨roots, visited, pushed, path.dropLast, onPath.erase v, stack⟩ := by
  obtain ⟨fresh, hfresh⟩ := h.exists_within
  have hpath : path = pathOf stack ++ [v] := h.path_eq.trans (pathOf_cons v [] stack)
  have honPath : onPath = path.toFinset := h.onPath_eq
  have hv : v ∉ pathOf stack := by
    have hnodup : path.Nodup := h.nodup_path
    rw [hpath, ← List.concat_eq_append, List.nodup_concat] at hnodup
    exact hnodup.1
  refine ⟨by simp [hpath], { h.toAgreeing with path_eq := ?_, onPath_eq := ?_ }, fresh,
    hfresh.exploring.leave, hfresh.mem_fresh_iff, ?_⟩
  · rw [hpath, List.dropLast_concat]
  · -- the last id stands on the path once, so the set loses what the list loses
    ext w
    simp only [honPath, hpath, List.dropLast_concat, Finset.mem_erase, List.mem_toFinset,
      List.mem_append, List.mem_singleton]
    constructor
    · rintro ⟨hwv, hw⟩
      exact hw.resolve_right hwv
    · exact fun hw ↦ ⟨ne_of_mem_of_not_mem hw hv, .inl hw⟩
  · exact (g.searchOn_pop).symm.trans hfresh.searchOn_eq

/-- **A neighbour on the path ends the search.** -/
theorem close (h : g.Searching ⟨roots, visited, pushed, path, onPath, (v, u :: us) :: stack⟩)
    (hpath : u ∈ path) : some (path.drop (path.idxOf u) ++ [u]) = g.findCycle? := by
  obtain ⟨fresh, hfresh⟩ := h.exists_within
  have heq : path = pathOf ((v, us) :: stack) := h.path_eq
  rw [heq, ← hfresh.searchOn_eq]
  exact (g.searchOn_cycle (heq ▸ hpath)).symm

/-- **No root is left.** -/
theorem finish (h : g.Searching ⟨[], visited, pushed, path, onPath, []⟩) : none = g.findCycle? := by
  obtain ⟨fresh, hfresh⟩ := h.exists_within
  exact g.searchOn_nil.symm.trans hfresh.searchOn_eq

/-- How far the loop has still to go: the ids that may yet be pushed, then the roots and neighbours
that are left. -/
def size (g : Digraph α) (s : SearchState α) : Nat ×ₗ Nat :=
  toLex (g.entered.length - s.pushed.length, s.roots.length + pending s.stack)

/-- A push leaves one id less that may yet be pushed. -/
theorem size_push_lt {adjacency : Table α (List α)} {t : SearchState α}
    (h : g.Searching (s.push adjacency v)) (ht : t.pushed = s.pushed) :
    size g (s.push adjacency v) < size g t := by
  have hle := h.length_pushed_le
  refine Prod.Lex.toLex_lt_toLex.mpr (.inl ?_)
  simp only [SearchState.push, List.length_append, List.length_singleton, ht] at hle ⊢
  omega

/-- **One turn.** -/
theorem turn (h : g.Searching s) :
    (g.cycleLoop.turn s).Sound g.Searching (size g) g.findCycle? s := by
  obtain ⟨roots, visited, pushed, path, onPath, stack⟩ := s
  -- the loop asks the sets, and the invariant is told of the lists
  have hvisited : ∀ w, w ∈ visited ↔ w ∈ pushed := fun w ↦ by
    rw [show visited = pushed.toFinset from h.visited_eq, List.mem_toFinset]
  have honPath : ∀ w, w ∈ onPath ↔ w ∈ path := fun w ↦ by
    rw [show onPath = path.toFinset from h.onPath_eq, List.mem_toFinset]
  simp only [cycleLoop]
  match stack, roots with
  | (v, u :: us) :: stack, roots =>
    by_cases hpath : u ∈ path
    · simp only [searchTurn, if_pos ((honPath u).mpr hpath), if_pos hpath]
      exact h.close hpath
    by_cases hu : u ∈ pushed
    · simp only [searchTurn, if_neg (hpath ∘ (honPath u).mp), if_pos ((hvisited u).mpr hu)]
      refine ⟨h.skip hpath hu, Prod.Lex.toLex_lt_toLex.mpr (.inr ⟨rfl, ?_⟩)⟩
      simp only [pending, List.length_cons]
      omega
    · simp only [searchTurn, if_neg (hpath ∘ (honPath u).mp), if_neg (hu ∘ (hvisited u).mp)]
      have hnext := h.descend hpath hu
      exact ⟨hnext, size_push_lt hnext rfl⟩
  | (v, []) :: stack, roots =>
    obtain ⟨hpath, hnext⟩ := h.pop
    simp only [searchTurn, if_neg hpath]
    refine ⟨hnext, Prod.Lex.toLex_lt_toLex.mpr (.inr ⟨rfl, ?_⟩)⟩
    simp only [pending, List.length_nil]
    omega
  | [], v :: roots =>
    by_cases hv : v ∈ pushed
    · simp only [searchTurn, if_pos ((hvisited v).mpr hv)]
      refine ⟨h.skipRoot hv, Prod.Lex.toLex_lt_toLex.mpr (.inr ⟨rfl, ?_⟩)⟩
      simp only [List.length_cons]
      omega
    · simp only [searchTurn, if_neg (hv ∘ (hvisited v).mp)]
      have hnext := h.root hv
      exact ⟨hnext, size_push_lt hnext rfl⟩
  | [], [] => exact h.finish

/-- **The first state.** -/
theorem start (g : Digraph α) : g.Searching ⟨g.vertices, ∅, [], [], ∅, []⟩ where
  roots_subset := List.Subset.refl _
  visited_eq := rfl
  nodup_pushed := .nil
  entered_pushed _ hv := absurd hv List.not_mem_nil
  path_eq := rfl
  onPath_eq := rfl
  exists_within := by
    refine ⟨g.entered, g.exploring_entered, fun v ↦ ?_, ?_⟩
    · rw [mem_entered]
      exact (and_iff_left List.not_mem_nil).symm
    · simp only [searchOn, search, findCycle?]

end Searching

end Turns

/-! ## The run -/

/-- **The loop ends with what is found**, and no lookup fails. -/
theorem cycleLoop_run (g : Digraph α) :
    g.cycleLoop.Ends g.findCycle? ∧ g.cycleLoop.NeverFails ∧
      ∀ s, g.cycleLoop.Passes s → g.Searching s :=
  Machine.run rfl (Searching.start g) fun _ ↦ Searching.turn

end Digraph

end AgentFlow
