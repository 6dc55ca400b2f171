import AgentFlow.Digraph.Cycle
import AgentFlow.Proofs.Digraph.Order
import Mathlib.Data.List.Chain

/-!
# What the search for cycles holds

The search stands on one invariant (`Exploring`) of the ids that are still fresh and the stack of
frames. The ids of the stack are a path without repetitions that some vertex reaches, so a neighbour
on the path closes a cycle (`Exploring.goesRound`). An id that was met and has left the stack is
`Clear`: it reaches no cycle.

The second half is what a search without result rests on, and it needs more than that the neighbours
of an id were met, since those may still be on the stack. So each frame keeps account of all arcs
out of its id (`Frame.Viewed`): such an arc is not looked at yet, or leads to the id that comes next
on the path, or leads to an id that is clear. When the newest frame is used up, the first two cases
are empty, hence its id is clear as well; and for the frame below, where it was the second case, it
becomes the third.

Nothing here speaks of one root. What an earlier root has left behind is clear in the same sense, so
the invariant goes through all roots.
-/

namespace AgentFlow

namespace Digraph

variable {α : Type}

/-! ## Ids that reach no cycle -/

/-- No cycle is reached from `v`. -/
def Clear (g : Digraph α) (v : α) : Prop := ∀ u, g.Reaches v u → ¬g.OnCycle u

theorem Reaches.head {g : Digraph α} {t u v : α} (ha : g.Arc t u) (huv : g.Reaches u v) :
    g.Reaches t v := by
  rcases huv with rfl | huv
  · exact .inr (.single ha)
  · exact .inr (.head ha huv)

theorem Leads.exists_arc {g : Digraph α} {u v : α} (h : g.Leads u v) :
    ∃ w, g.Arc u w ∧ g.Reaches w v := by
  obtain ⟨w, ha, hwv⟩ := Relation.TransGen.head'_iff.mp h
  refine ⟨w, ha, ?_⟩
  rcases Relation.reflTransGen_iff_eq_or_transGen.mp hwv with rfl | hwv
  · exact .inl rfl
  · exact .inr hwv

/-- A cycle is reached by way of a neighbour, also the cycle on which one stands. -/
theorem Clear.of_arcs {g : Digraph α} {v : α} (h : ∀ u, g.Arc v u → g.Clear u) : g.Clear v := by
  intro u hvu hu
  have hleads : g.Leads v u := by
    rcases hvu with rfl | hvu
    · exact hu
    · exact hvu
  obtain ⟨w, ha, hwu⟩ := hleads.exists_arc
  exact h w ha u hwu hu

/-! ## Closed paths -/

/-- A path goes round a cycle once and comes back to where it starts. -/
def GoesRound (g : Digraph α) (path : List α) : Prop :=
  ∃ v inner, path = v :: (inner ++ [v]) ∧ (v :: inner).Nodup ∧ path.IsChain g.Arc ∧
    ∃ r ∈ g.vertices, g.Reaches r v

theorem leads_of_isChain {g : Digraph α} {u v : α} {inner : List α}
    (h : (u :: (inner ++ [v])).IsChain g.Arc) : g.Leads u v := by
  induction inner generalizing u with
  | nil => exact .single (List.isChain_cons_cons.mp h).1
  | cons w inner ih =>
    obtain ⟨ha, hrest⟩ := List.isChain_cons_cons.mp h
    exact .head ha (ih hrest)

theorem GoesRound.exists_not_clear {g : Digraph α} {path : List α} (h : g.GoesRound path) :
    ∃ r ∈ g.vertices, ¬g.Clear r := by
  obtain ⟨v, inner, rfl, -, harcs, r, hr, hrv⟩ := h
  exact ⟨r, hr, fun hclear ↦ hclear v hrv (leads_of_isChain harcs)⟩

/-! ## Frames -/

/-- What of the arcs out of the id of a frame is settled, when `next` is the id that comes above the
frame on the path, if there is one. -/
structure Frame.Viewed (g : Digraph α) (next : Option α) (frame : Frame α) : Prop where
  /-- What was not looked at yet are neighbours. -/
  arc_of_mem : ∀ u ∈ frame.2, g.Arc frame.1 u
  /-- The path goes along an arc. -/
  arc_next : ∀ u ∈ next, g.Arc frame.1 u
  /-- All other neighbours are clear. -/
  clear : ∀ u, g.Arc frame.1 u → u ∈ frame.2 ∨ u ∈ next ∨ g.Clear u

/-- All frames of a stack are viewed, the newest below `next`. -/
def Viewed (g : Digraph α) : Option α → List (Frame α) → Prop
  | _, [] => True
  | next, frame :: stack => frame.Viewed g next ∧ Viewed g (some frame.1) stack

theorem Viewed.isChain {g : Digraph α} {next : Option α} {stack : List (Frame α)}
    (h : g.Viewed next stack) : (stack.map Prod.fst).IsChain fun u v ↦ g.Arc v u := by
  induction stack generalizing next with
  | nil => exact .nil
  | cons frame stack ih =>
    cases stack with
    | nil => exact .singleton _
    | cons below stack => exact .cons_cons (h.2.1.arc_next _ rfl) (ih h.2)

/-- An id need not stay on the path once it is clear. -/
theorem Viewed.pop {g : Digraph α} {v : α} {stack : List (Frame α)}
    (h : g.Viewed (some v) stack) (hv : g.Clear v) : g.Viewed none stack := by
  cases stack with
  | nil => trivial
  | cons frame stack =>
    refine ⟨⟨h.1.arc_of_mem, fun u hu ↦ absurd hu (Option.not_mem_none u), fun u hu ↦ ?_⟩, h.2⟩
    rcases h.1.clear u hu with hmem | hnext | hclear
    · exact .inl hmem
    · exact .inr (.inr (Option.mem_some_iff.mp hnext ▸ hv))
    · exact .inr (.inr hclear)

/-! ## The invariant -/

/-- **The invariant of the search.** The id `next`, if there is one, is looked at from the newest
frame and not yet decided on. -/
structure Exploring (g : Digraph α) (fresh : List α) (next : Option α) (stack : List (Frame α)) :
    Prop where
  /-- Fresh ids are listed once. -/
  nodup_fresh : fresh.Nodup
  /-- No id stands on the path twice. -/
  nodup_path : (stack.map Prod.fst).Nodup
  /-- The ids of the path are not fresh. -/
  notMem_fresh : ∀ v ∈ stack.map Prod.fst, v ∉ fresh
  /-- The ids of the path are reached from a vertex. -/
  reached : ∀ v ∈ stack.map Prod.fst, ∃ r ∈ g.vertices, g.Reaches r v
  /-- The frames account for the arcs out of their ids. -/
  viewed : g.Viewed next stack
  /-- An id that was met and is not on the path is clear. -/
  clear : ∀ v, g.Entered v → v ∉ fresh → v ∉ stack.map Prod.fst → g.Clear v

/-- What a search may come to when the ids `fresh` were not met before. -/
def Search.Holds (g : Digraph α) (fresh : List α) : Search α → Prop
  | .cycle path => g.GoesRound path
  | .clear rest => g.Exploring rest none [] ∧ rest ⊆ fresh

theorem Search.Holds.mono {g : Digraph α} {fresh fresh' : List α} {result : Search α}
    (h : result.Holds g fresh) (hsub : fresh ⊆ fresh') : result.Holds g fresh' := by
  cases result with
  | cycle path => exact h
  | clear rest => exact ⟨h.1, fun u hu ↦ hsub (h.2 hu)⟩

namespace Exploring

variable {g : Digraph α} {fresh us : List α} {stack : List (Frame α)} {u v : α}

/-! ### Steps -/

/-- The next neighbour is looked at. -/
theorem look (h : g.Exploring fresh none ((v, u :: us) :: stack)) :
    g.Exploring fresh (some u) ((v, us) :: stack) where
  nodup_fresh := h.nodup_fresh
  nodup_path := h.nodup_path
  notMem_fresh := h.notMem_fresh
  reached := h.reached
  viewed := by
    refine ⟨⟨fun w hw ↦ ?_, fun w hw ↦ ?_, fun w hw ↦ ?_⟩, h.viewed.2⟩
    · exact h.viewed.1.arc_of_mem w (List.mem_cons_of_mem u hw)
    · exact h.viewed.1.arc_of_mem w (Option.mem_some_iff.mp hw ▸ List.mem_cons_self)
    · rcases h.viewed.1.clear w hw with hmem | hnext | hclear
      · rcases List.mem_cons.mp hmem with rfl | hmem
        · exact .inr (.inl rfl)
        · exact .inl hmem
      · exact absurd hnext (Option.not_mem_none w)
      · exact .inr (.inr hclear)
  clear := h.clear

/-- A neighbour that is clear is passed over. -/
theorem pass (h : g.Exploring fresh (some u) stack) (hu : g.Clear u) :
    g.Exploring fresh none stack :=
  { h with viewed := h.viewed.pop hu }

theorem entered_head (h : g.Exploring fresh none ((v, u :: us) :: stack)) : g.Entered u :=
  entered_of_arc (h.viewed.1.arc_of_mem u List.mem_cons_self)

/-- A neighbour that was met before and is not on the path is passed over. -/
theorem skip (h : g.Exploring fresh none ((v, u :: us) :: stack))
    (hpath : u ∉ (v :: stack.map Prod.fst).reverse) (hfresh : u ∉ fresh) :
    g.Exploring fresh none ((v, us) :: stack) :=
  h.look.pass (h.clear u h.entered_head hfresh fun hmem ↦ hpath (List.mem_reverse.mpr hmem))

variable [DecidableEq α]

/-- A fresh id joins the path, with all its neighbours to be looked at. -/
theorem push (h : g.Exploring fresh (some u) stack) (hu : u ∈ fresh)
    (hroot : ∃ r ∈ g.vertices, g.Reaches r u) :
    g.Exploring (fresh.erase u) none ((u, g.successors u) :: stack) where
  nodup_fresh := h.nodup_fresh.erase u
  nodup_path := List.nodup_cons.mpr ⟨fun hmem ↦ h.notMem_fresh u hmem hu, h.nodup_path⟩
  notMem_fresh w hw := by
    rw [h.nodup_fresh.mem_erase_iff]
    rintro ⟨hwu, hfresh⟩
    exact h.notMem_fresh w ((List.mem_cons.mp hw).resolve_left hwu) hfresh
  reached w hw := by
    rcases List.mem_cons.mp hw with rfl | hw
    · exact hroot
    · exact h.reached w hw
  viewed := ⟨⟨fun _ ↦ mem_successors.mp, fun _ hw ↦ absurd hw (Option.not_mem_none _),
    fun _ hw ↦ .inl (mem_successors.mpr hw)⟩, h.viewed⟩
  clear w hw hfresh hpath := by
    rw [List.map_cons, List.mem_cons, not_or] at hpath
    refine h.clear w hw (fun hmem ↦ hfresh ?_) hpath.2
    exact h.nodup_fresh.mem_erase_iff.mpr ⟨hpath.1, hmem⟩

/-- A root starts a path. -/
theorem start (h : g.Exploring fresh none []) (hv : v ∈ fresh) (hroot : v ∈ g.vertices) :
    g.Exploring (fresh.erase v) none [(v, g.successors v)] :=
  push { h with viewed := trivial } hv ⟨v, hroot, .inl rfl⟩

/-- A fresh neighbour is descended into. -/
theorem descend (h : g.Exploring fresh (some u) ((v, us) :: stack)) (hu : u ∈ fresh) :
    g.Exploring (fresh.erase u) none ((u, g.successors u) :: (v, us) :: stack) := by
  obtain ⟨r, hr, hrv⟩ := h.reached v List.mem_cons_self
  exact h.push hu ⟨r, hr, hrv.tail (h.viewed.1.arc_next u rfl)⟩

/-- A frame that is used up leaves the stack. -/
theorem leave (h : g.Exploring fresh none ((v, []) :: stack)) : g.Exploring fresh none stack := by
  have hclear : g.Clear v := Clear.of_arcs fun u hu ↦ by
    rcases h.viewed.1.clear u hu with hmem | hnext | hclear
    · exact absurd hmem List.not_mem_nil
    · exact absurd hnext (Option.not_mem_none u)
    · exact hclear
  refine ⟨h.nodup_fresh, (List.nodup_cons.mp h.nodup_path).2, fun w hw ↦ ?_, fun w hw ↦ ?_,
    h.viewed.2.pop hclear, fun w hw hfresh hpath ↦ ?_⟩
  · exact h.notMem_fresh w (List.mem_cons_of_mem v hw)
  · exact h.reached w (List.mem_cons_of_mem v hw)
  · by_cases hwv : w = v
    · exact hwv ▸ hclear
    · exact h.clear w hw hfresh fun hmem ↦ hpath ((List.mem_cons.mp hmem).resolve_left hwv)

/-! ### Results -/

theorem closePath_append {before after : List α} (hu : u ∉ before) :
    closePath (before ++ u :: after) u = u :: (after ++ [u]) := by
  rw [closePath, List.dropWhile_append_of_pos, List.dropWhile_cons_of_neg, List.cons_append]
  · simp
  · intro w hw
    exact decide_eq_true fun hwu : w = u ↦ hu (hwu ▸ hw)

/-- A neighbour on the path closes a cycle. -/
theorem goesRound (h : g.Exploring fresh (some u) ((v, us) :: stack))
    (hu : u ∈ (v :: stack.map Prod.fst).reverse) :
    g.GoesRound (closePath (v :: stack.map Prod.fst).reverse u) := by
  have hnodup : (v :: stack.map Prod.fst).reverse.Nodup := List.nodup_reverse.mpr h.nodup_path
  have hchain : ((v :: stack.map Prod.fst).reverse ++ [u]).IsChain g.Arc := by
    rw [← List.reverse_cons, List.isChain_reverse]
    exact .cons_cons (h.viewed.1.arc_next u rfl) h.viewed.isChain
  have hroot := h.reached u (List.mem_reverse.mp hu)
  obtain ⟨before, after, hpath⟩ := List.append_of_mem hu
  rw [hpath] at hnodup hchain ⊢
  obtain ⟨-, hcycle, hdisjoint⟩ := List.nodup_append.mp hnodup
  have hu' : u ∉ before := fun hmem ↦ hdisjoint u hmem u List.mem_cons_self rfl
  rw [closePath_append hu']
  refine ⟨u, after, rfl, hcycle, hchain.suffix ⟨before, ?_⟩, hroot⟩
  simp

omit [DecidableEq α] in
/-- The search is defined by well-founded recursion, whose induction principle marks the members of
the stack as such. -/
theorem mem_path_attach :
    u ∈ (v :: stack.attach.map fun frame ↦ Prod.fst frame.1).reverse
      ↔ u ∈ (v :: stack.map Prod.fst).reverse := by
  rw [List.attach_map_val]

/-- **A whole search** keeps the invariant, up to a cycle or the empty stack. -/
theorem search (h : g.Exploring fresh none stack) : (g.search fresh stack).Holds g fresh := by
  fun_induction Digraph.search g fresh stack with
  | case1 fresh => exact ⟨h, List.Subset.refl fresh⟩
  | case2 fresh v stack ih => exact ih h.leave
  | case3 fresh v u us stack path hu =>
    rw [mem_path_attach] at hu
    rw [if_pos hu]
    exact h.look.goesRound hu
  | case4 fresh v u us stack path hu hfresh ih =>
    rw [mem_path_attach] at hu
    rw [if_neg hu, if_pos hfresh]
    exact (ih (h.look.descend hfresh)).mono List.erase_subset
  | case5 fresh v u us stack path hu hfresh ih =>
    rw [mem_path_attach] at hu
    rw [if_neg hu, if_neg hfresh]
    exact ih (h.skip hu hfresh)

/-- **The search from all roots** finds a cycle or shows them to be clear. -/
theorem searchRoots {vs : List α} (h : g.Exploring fresh none []) (hvs : vs ⊆ g.vertices) :
    (∀ path, g.searchRoots fresh vs = some path → g.GoesRound path) ∧
      (g.searchRoots fresh vs = none → ∀ v ∈ vs, g.Clear v) := by
  induction vs generalizing fresh with
  | nil => exact ⟨fun _ hpath ↦ absurd hpath (by simp [Digraph.searchRoots]), by simp⟩
  | cons v vs ih =>
    have hv : v ∈ g.vertices := hvs List.mem_cons_self
    have hvs' : vs ⊆ g.vertices := fun u hu ↦ hvs (List.mem_cons_of_mem v hu)
    rw [Digraph.searchRoots]
    by_cases hfresh : v ∈ fresh
    · rw [if_pos hfresh]
      have hsearch := (h.start hfresh hv).search
      cases hresult : g.search (fresh.erase v) [(v, g.successors v)] with
      | cycle path =>
        rw [hresult] at hsearch
        exact ⟨fun _ hpath ↦ Option.some_inj.mp hpath ▸ hsearch, fun hnone ↦ absurd hnone (by simp)⟩
      | clear rest =>
        rw [hresult] at hsearch
        obtain ⟨hcycle, hclear⟩ := ih hsearch.1 hvs'
        refine ⟨hcycle, fun hnone u hu ↦ ?_⟩
        rcases List.mem_cons.mp hu with rfl | hu
        · refine hsearch.1.clear u (.inl hv) (fun hmem ↦ ?_) List.not_mem_nil
          exact (h.nodup_fresh.mem_erase_iff.mp (hsearch.2 hmem)).1 rfl
        · exact hclear hnone u hu
    · rw [if_neg hfresh]
      obtain ⟨hcycle, hclear⟩ := ih h hvs'
      refine ⟨hcycle, fun hnone u hu ↦ ?_⟩
      rcases List.mem_cons.mp hu with rfl | hu
      · exact h.clear u (.inl hv) hfresh List.not_mem_nil
      · exact hclear hnone u hu

end Exploring

/-! ## The search in full -/

variable [DecidableEq α]

theorem exploring_entered (g : Digraph α) : g.Exploring g.entered none [] where
  nodup_fresh := g.nodup_entered
  nodup_path := .nil
  notMem_fresh _ hv := absurd hv List.not_mem_nil
  reached _ hv := absurd hv List.not_mem_nil
  viewed := trivial
  clear _ hv hfresh _ := absurd (mem_entered.mpr hv) hfresh

theorem goesRound_of_findCycle? {g : Digraph α} {path : List α} (h : g.findCycle? = some path) :
    g.GoesRound path :=
  (g.exploring_entered.searchRoots (List.Subset.refl g.vertices)).1 path h

theorem findCycle?_eq_none_iff {g : Digraph α} :
    g.findCycle? = none ↔ ∀ v ∈ g.vertices, g.Clear v := by
  constructor
  · exact (g.exploring_entered.searchRoots (List.Subset.refl g.vertices)).2
  · intro hclear
    cases hpath : g.findCycle? with
    | none => rfl
    | some path =>
      obtain ⟨r, hr, hcycle⟩ := (goesRound_of_findCycle? hpath).exists_not_clear
      exact absurd (hclear r hr) hcycle

theorem hasCycle_eq_false_iff {g : Digraph α} :
    g.hasCycle = false ↔ ∀ v ∈ g.vertices, g.Clear v := by
  rw [hasCycle, Option.isSome_eq_false_iff, Option.isNone_iff_eq_none, findCycle?_eq_none_iff]

/-! ## The search and the order

The search looks down from the vertices and the order looks up: a vertex is held back by what it is
reached from. Every such id but the vertex itself is the source of an arc, so the two views can part
only at sources that are no vertices. -/

/-- An id that arcs leave without its being a vertex. -/
def Foreign (g : Digraph α) (u : α) : Prop := u ∉ g.vertices ∧ ∃ v, g.Arc u v

omit [DecidableEq α] in
/-- Where the vertices are clear, only a foreign id can hold one back. -/
theorem HeldBack.exists_foreign {g : Digraph α} {v : α} (h : g.HeldBack v)
    (hclear : ∀ u ∈ g.vertices, g.Clear u) (hv : v ∈ g.vertices) :
    ∃ u, g.Foreign u ∧ g.Leads u v := by
  obtain ⟨u, huv, hu⟩ := h
  have hforeign : u ∉ g.vertices := by
    intro hmem
    rcases hu with hcycle | hentered
    · exact hclear u hmem u (.inl rfl) hcycle
    · exact hentered (.inl hmem)
  have hleads : g.Leads u v := by
    rcases huv with rfl | huv
    · exact absurd hv hforeign
    · exact huv
  obtain ⟨w, huw, -⟩ := hleads.exists_arc
  exact ⟨u, ⟨hforeign, w, huw⟩, hleads⟩

/-- **The verdict on the order.** Without foreign ids, no cycle is found exactly if the order holds
all vertices. -/
theorem hasCycle_eq_false_iff_forall_mem_order {g : Digraph α} (hforeign : ∀ u, ¬g.Foreign u) :
    g.hasCycle = false ↔ ∀ v ∈ g.vertices, v ∈ g.order := by
  rw [hasCycle_eq_false_iff]
  constructor
  · intro hclear v hv
    rw [mem_order_iff_not_heldBack]
    intro hheld
    obtain ⟨u, hu, -⟩ := hheld.exists_foreign hclear hv
    exact hforeign u hu
  · intro horder r _ v _ hcycle
    -- arcs leave an id on a cycle, so it is a vertex, and the order holds no such vertex
    have hv : v ∈ g.vertices := by
      by_contra hmem
      obtain ⟨w, hvw, -⟩ := Leads.exists_arc hcycle
      exact hforeign v ⟨hmem, w, hvw⟩
    exact not_onCycle_of_not_heldBack (mem_order_iff_not_heldBack.mp (horder v hv)) hcycle

end Digraph

end AgentFlow
