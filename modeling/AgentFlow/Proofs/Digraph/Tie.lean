import AgentFlow.Proofs.Digraph.Copy
import Mathlib.Data.Finset.Lattice.Fold
import Mathlib.Data.Prod.Lex
import Mathlib.Order.Lattice.Nat

/-!
# How ties are broken

Arcs leave much of the order open. What settles the rest is the queue: it starts with the ids that
wait for nothing, and whenever an id leaves it, the ids that join go to its end. So the order is a
fixed point (`order_eq_append`): the ids that wait for nothing, and behind them, for each id of the
order in turn, those that join when it leaves.

Everything else is read off this equation. An id joins when the last of the sources of the arcs into
it leaves the queue, and among the ids that join together the one whose last arc comes first in the
list of arcs is first (`Releases`). So the ids behind the first ones are sorted by the place of that
source and, within one place, by the place of that arc.

## Depth

The depth of an id is the length of the longest path to it. It never goes down along the order
(`depth_le_depth`), though the queue knows nothing of paths. The argument compares two ids at a
time: the one that comes first has the source that leaves first, and for sources, which come before
their targets, the statement is known.
-/

namespace AgentFlow

namespace Digraph

variable {α : Type} [DecidableEq α]

/-! ## Places in a list -/

theorem idxOf_lt_of_filter {p : α → Bool} {l : List α} {a b : α} (ha : p a) (hb : p b)
    (h : (l.filter p).idxOf a < (l.filter p).idxOf b) : l.idxOf a < l.idxOf b := by
  induction l with
  | nil => simp at h
  | cons c l ih =>
    by_cases hc : p c
    · rw [List.filter_cons_of_pos hc] at h
      by_cases hca : c = a
      · subst hca
        have hcb : c ≠ b := by
          rintro rfl
          exact absurd h (lt_irrefl _)
        rw [List.idxOf_cons_self, List.idxOf_cons_ne _ hcb]
        exact Nat.succ_pos _
      · by_cases hcb : c = b
        · subst hcb
          rw [List.idxOf_cons_self] at h
          exact absurd h (Nat.not_lt_zero _)
        · rw [List.idxOf_cons_ne _ hca, List.idxOf_cons_ne _ hcb] at h
          rw [List.idxOf_cons_ne _ hca, List.idxOf_cons_ne _ hcb]
          exact Nat.succ_lt_succ (ih (Nat.lt_of_succ_lt_succ h))
    · have hca : c ≠ a := fun hca ↦ hc (hca ▸ ha)
      have hcb : c ≠ b := fun hcb ↦ hc (hcb ▸ hb)
      rw [List.filter_cons_of_neg hc] at h
      rw [List.idxOf_cons_ne _ hca, List.idxOf_cons_ne _ hcb]
      exact Nat.succ_lt_succ (ih h)

/-- Without repetitions, elements come in the order of their first occurrences. -/
theorem pairwise_idxOf_eraseDups (l : List α) :
    l.eraseDups.Pairwise fun a b ↦ l.idxOf a < l.idxOf b := by
  -- by length, since copies of the first element are taken out before the rest is gone through
  induction hn : l.length using Nat.strong_induction_on generalizing l with
  | _ n ih =>
    cases l with
    | nil => simp
    | cons a l =>
      have hlength : (l.filter fun b ↦ !b == a).length < n := by
        rw [← hn]
        exact Nat.lt_succ_of_le (List.length_filter_le _ l)
      have hother : ∀ b ∈ (l.filter fun b ↦ !b == a).eraseDups, !b == a := fun b hb ↦
        (List.mem_filter.mp (List.mem_eraseDups.mp hb)).2
      have hne : ∀ b ∈ (l.filter fun b ↦ !b == a).eraseDups, a ≠ b := by
        rintro b hb rfl
        simpa using hother a hb
      rw [List.eraseDups_cons, List.pairwise_cons]
      refine ⟨fun b hb ↦ ?_, ?_⟩
      · rw [List.idxOf_cons_self, List.idxOf_cons_ne _ (hne b hb)]
        exact Nat.succ_pos _
      · refine (ih _ hlength _ rfl).imp_of_mem fun {b c} hb hc hbc ↦ ?_
        rw [List.idxOf_cons_ne _ (hne b hb), List.idxOf_cons_ne _ (hne c hc)]
        exact Nat.succ_lt_succ (idxOf_lt_of_filter (hother b hb) (hother c hc) hbc)

/-- Without repetitions, the last occurrence counting, an element comes before another if the other
occurs again behind all of its occurrences. -/
theorem pairwise_dedup (l : List α) :
    l.dedup.Pairwise fun a b ↦ ∃ before after, l = before ++ after ∧ a ∉ after ∧ b ∈ after := by
  induction l with
  | nil => simp
  | cons c l ih =>
    have ih : l.dedup.Pairwise fun a b ↦
        ∃ before after, c :: l = before ++ after ∧ a ∉ after ∧ b ∈ after := by
      refine ih.imp ?_
      rintro a b ⟨before, after, rfl, ha, hb⟩
      exact ⟨c :: before, after, rfl, ha, hb⟩
    by_cases hc : c ∈ l
    · rwa [List.dedup_cons_of_mem hc]
    · rw [List.dedup_cons_of_notMem hc, List.pairwise_cons]
      exact ⟨fun b hb ↦ ⟨[c], l, rfl, hc, List.mem_dedup.mp hb⟩, ih⟩

omit [DecidableEq α] in
theorem exists_last_place {l : List α} {a : α} (ha : a ∈ l) :
    ∃ i : Nat, l[i]? = some a ∧ ∀ j : Nat, l[j]? = some a → j ≤ i := by
  induction l with
  | nil => exact absurd ha List.not_mem_nil
  | cons b l ih =>
    by_cases hal : a ∈ l
    · obtain ⟨i, hi, hlast⟩ := ih hal
      refine ⟨i + 1, hi, fun j hj ↦ ?_⟩
      cases j with
      | zero => exact Nat.zero_le _
      | succ j => exact Nat.succ_le_succ (hlast j hj)
    · obtain rfl : a = b := (List.mem_cons.mp ha).resolve_right hal
      refine ⟨0, rfl, fun j hj ↦ ?_⟩
      cases j with
      | zero => exact Nat.le_refl _
      | succ j =>
        rw [List.getElem?_cons_succ] at hj
        exact absurd (List.mem_of_getElem? hj) hal

omit [DecidableEq α] in
/-- Behind a point of a list from which on an element is missing, every last place is later. -/
theorem lt_of_last_place {before after : List α} {a b : α} {i j : Nat} (ha : a ∉ after)
    (hb : b ∈ after) (hi : (before ++ after)[i]? = some a)
    (hj : ∀ k, (before ++ after)[k]? = some b → k ≤ j) : i < j := by
  have hlt : i < before.length := by
    by_contra hge
    rw [List.getElem?_append_right (Nat.le_of_not_lt hge)] at hi
    exact ha (List.mem_of_getElem? hi)
  obtain ⟨k, hk⟩ := List.getElem?_of_mem hb
  have hle : before.length + k ≤ j := hj _ (by rwa [List.getElem?_append_right (by omega),
    Nat.add_sub_cancel_left])
  omega

/-- What holds of the members of a list in turn holds by their places. -/
theorem rel_of_idxOf_lt {R : α → α → Prop} {l : List α} (h : l.Pairwise R) {a b : α} (hb : b ∈ l)
    (hlt : l.idxOf a < l.idxOf b) : R a b := by
  have hb' := List.idxOf_lt_length_iff.mpr hb
  have hR := List.pairwise_iff_getElem.mp h _ _ (hlt.trans hb') hb' hlt
  rwa [List.getElem_idxOf, List.getElem_idxOf] at hR

/-! ## The ids that join -/

/-- The ids that join when one more id leaves the queue. -/
def joined (g : Digraph α) (done : List α) (v : α) : List α :=
  (g.successors v).dedup.filter fun u ↦ g.unsettled (done ++ [v]) u = 0

/-- The ids that join while some more ids leave the queue in turn. -/
def joins (g : Digraph α) : List α → List α → List α
  | _, [] => []
  | done, v :: vs => g.joined done v ++ joins g (done ++ [v]) vs

variable {g : Digraph α} {done queue vs : List α} {u v x y : α} {w : Waiting α}

theorem mem_joined : x ∈ g.joined done v ↔ g.Arc v x ∧ ∀ u, g.Arc u x → u ∈ done ++ [v] := by
  rw [joined, List.mem_filter, List.mem_dedup, mem_successors, decide_eq_true_iff,
    unsettled_eq_zero]

theorem exists_of_mem_joins (h : x ∈ g.joins done vs) :
    ∃ before v after, vs = before ++ v :: after ∧ x ∈ g.joined (done ++ before) v := by
  induction vs generalizing done with
  | nil => exact absurd h List.not_mem_nil
  | cons v vs ih =>
    obtain hx | hx := List.mem_append.mp h
    · exact ⟨[], v, vs, rfl, by rwa [List.append_nil]⟩
    · obtain ⟨before, v', after, rfl, hx⟩ := ih hx
      refine ⟨v :: before, v', after, rfl, ?_⟩
      rwa [List.append_cons]

/-- **The queue.** What leaves it is what stands in it, and behind that what joins meanwhile. -/
theorem Underway.run_eq (h : g.Underway done queue w) :
    g.run queue w = queue ++ g.joins done (g.run queue w) := by
  fun_induction run g queue w generalizing done
  case case1 w => rfl
  case case2 v queue w _ ih =>
    have hstep : (Waiting.settle (g.successors v) w).1 = g.joined done v := h.settled_eq
    have ih := ih h.step
    rw [hstep] at ih ⊢
    rw [joins, List.cons_append]
    refine congrArg (v :: ·) ?_
    rw [← List.append_assoc]
    exact ih

theorem order_eq_append (g : Digraph α) : g.order = g.sources ++ g.joins [] g.order :=
  g.underway_sources.run_eq

/-! ## The arc that lets an id join -/

/-- The arc with the number `i`, which comes from `u`, lets `v` join: of all arcs into `v` none
comes from an id that leaves the queue later, and none from `u` comes later in the list. -/
structure Releases (g : Digraph α) (u : α) (i : Nat) (v : α) : Prop where
  /-- The arc. -/
  arc : g.arcs[i]? = some (u, v)
  /-- Its source leaves the queue last. -/
  source_last : ∀ t, g.Arc t v → g.order.idxOf t ≤ g.order.idxOf u
  /-- It is the last one from its source. -/
  arc_last : ∀ j, g.arcs[j]? = some (u, v) → j ≤ i

namespace Releases

variable {i j : Nat}

theorem mem_arcs (h : g.Releases u i v) : g.Arc u v := List.mem_of_getElem? h.arc

theorem unique (hv : v ∈ g.order) (h : g.Releases u i v) (h' : g.Releases x j v) :
    u = x ∧ i = j := by
  have hu : u ∈ g.order := g.precedes_order.mem h.mem_arcs hv
  obtain rfl : u = x :=
    (List.idxOf_inj hu).mp (le_antisymm (h'.source_last _ h.mem_arcs) (h.source_last _ h'.mem_arcs))
  exact ⟨rfl, le_antisymm (h'.arc_last _ h.arc) (h.arc_last _ h'.arc)⟩

end Releases

theorem idxOf_order (horder : g.order = done ++ v :: vs) : g.order.idxOf v = done.length := by
  have hnodup := g.nodup_order
  rw [horder, List.nodup_append] at hnodup
  have hv : v ∉ done := fun h ↦ hnodup.2.2 v h v List.mem_cons_self rfl
  rw [horder, List.idxOf_append_of_notMem hv, List.idxOf_cons_self, Nat.add_zero]

theorem idxOf_le_of_mem_concat (horder : g.order = done ++ v :: vs) (hu : u ∈ done ++ [v]) :
    g.order.idxOf u ≤ g.order.idxOf v := by
  have hlt := List.idxOf_lt_length_iff.mpr hu
  rw [List.length_append, List.length_singleton] at hlt
  rw [idxOf_order horder, horder, List.append_cons, List.idxOf_append_of_mem hu]
  omega

theorem idxOf_lt_of_mem_rest (horder : g.order = done ++ v :: vs) (hu : u ∈ vs) :
    g.order.idxOf v < g.order.idxOf u := by
  have hnodup := g.nodup_order
  rw [horder, List.append_cons, List.nodup_append] at hnodup
  have hnew : u ∉ done ++ [v] := fun h ↦ hnodup.2.2 u h u hu rfl
  rw [idxOf_order horder, horder, List.append_cons, List.idxOf_append_of_notMem hnew,
    List.length_append, List.length_singleton]
  omega

/-- An id that joins when another leaves is released by an arc from that one. -/
theorem exists_releases_of_mem_joined (horder : g.order = done ++ v :: vs)
    (hx : x ∈ g.joined done v) : ∃ i, g.Releases v i x := by
  obtain ⟨harc, hsources⟩ := mem_joined.mp hx
  obtain ⟨i, hi, hlast⟩ := exists_last_place harc
  exact ⟨i, hi, fun t ht ↦ idxOf_le_of_mem_concat horder (hsources t ht), hlast⟩

theorem exists_releases_of_mem_joins (horder : g.order = done ++ vs) (hx : x ∈ g.joins done vs) :
    ∃ v ∈ vs, ∃ i, g.Releases v i x := by
  obtain ⟨before, v, after, rfl, hjoined⟩ := exists_of_mem_joins hx
  rw [← List.append_assoc] at horder
  exact ⟨v, List.mem_append_right _ List.mem_cons_self,
    exists_releases_of_mem_joined horder hjoined⟩

/-- Every id of the order is released, unless no arc enters it. -/
theorem exists_releases (hx : x ∈ g.order) (ha : g.Arc u x) : ∃ v i, g.Releases v i x := by
  rw [order_eq_append] at hx
  obtain hx | hx := List.mem_append.mp hx
  · exact absurd ha (not_arc_of_mem_sources hx)
  · obtain ⟨v, -, i, h⟩ := exists_releases_of_mem_joins rfl hx
    exact ⟨v, i, h⟩

/-- `x` is released before `y`: by an arc whose source leaves the queue earlier, or by an earlier
arc from the same source. -/
def ReleasedBefore (g : Digraph α) (x y : α) : Prop :=
  ∀ u i, g.Releases u i x → ∃ v j, g.Releases v j y ∧
    toLex (g.order.idxOf u, i) < toLex (g.order.idxOf v, j)

/-- Ids that join together are released by arcs from one source, in the order of the list. -/
theorem pairwise_joined (horder : g.order = done ++ v :: vs)
    (hmem : ∀ x ∈ g.joined done v, x ∈ g.order) :
    (g.joined done v).Pairwise g.ReleasedBefore := by
  refine ((pairwise_dedup _).filter _).imp_of_mem fun {x y} hx hy hxy u i hi ↦ ?_
  obtain ⟨i', hi'⟩ := exists_releases_of_mem_joined horder hx
  obtain ⟨j, hj⟩ := exists_releases_of_mem_joined horder hy
  obtain ⟨rfl, rfl⟩ := hi'.unique (hmem x hx) hi
  refine ⟨v, j, hj, Prod.Lex.toLex_lt_toLex.mpr (Or.inr ⟨rfl, ?_⟩)⟩
  -- a point of the list of arcs behind which `v` leads to `y` again but no longer to `x`
  obtain ⟨before, after, hsuccessors, hxafter, hyafter⟩ := hxy
  obtain ⟨_, filtered, hfilter, rfl, rfl⟩ := List.map_eq_append_iff.mp hsuccessors
  obtain ⟨arcs, rest, harcs, rfl, rfl⟩ := List.filter_eq_append_iff.mp hfilter
  have hx' : (v, x) ∉ rest := fun h ↦
    hxafter (List.mem_map.mpr ⟨(v, x), List.mem_filter.mpr ⟨h, by simp⟩, rfl⟩)
  have hy' : (v, y) ∈ rest := by
    obtain ⟨⟨s, t⟩, ha, rfl⟩ := List.mem_map.mp hyafter
    obtain ⟨hrest, hs⟩ := List.mem_filter.mp ha
    obtain rfl : s = v := of_decide_eq_true hs
    exact hrest
  exact lt_of_last_place hx' hy' (harcs ▸ hi.arc) fun k hk ↦ hj.arc_last k (harcs ▸ hk)

theorem pairwise_joins (horder : g.order = done ++ vs) (hmem : ∀ x ∈ g.joins done vs, x ∈ g.order) :
    (g.joins done vs).Pairwise g.ReleasedBefore := by
  induction vs generalizing done with
  | nil => exact List.Pairwise.nil
  | cons v vs ih =>
    rw [joins, List.forall_mem_append] at hmem
    obtain ⟨hjoined, hjoins⟩ := hmem
    have horder' : g.order = done ++ [v] ++ vs := by rwa [← List.append_cons]
    refine List.pairwise_append.mpr ⟨pairwise_joined horder hjoined, ih horder' hjoins, ?_⟩
    intro x hx y hy u i hi
    obtain ⟨i', hi'⟩ := exists_releases_of_mem_joined horder hx
    obtain ⟨v', hv', j, hj⟩ := exists_releases_of_mem_joins horder' hy
    obtain ⟨rfl, rfl⟩ := hi'.unique (hjoined x hx) hi
    exact ⟨v', j, hj, Prod.Lex.toLex_lt_toLex.mpr (Or.inl (idxOf_lt_of_mem_rest horder hv'))⟩

theorem pairwise_releasedBefore (g : Digraph α) : g.order.Pairwise g.ReleasedBefore := by
  have hmem : ∀ x ∈ g.joins [] g.order, x ∈ g.order := fun x hx ↦ by
    rw [order_eq_append]
    exact List.mem_append_right _ hx
  rw [order_eq_append]
  refine List.pairwise_append.mpr ⟨?_, pairwise_joins rfl hmem, ?_⟩
  · exact List.pairwise_of_forall_mem_list fun x hx y _ u i h ↦
      absurd h.mem_arcs (not_arc_of_mem_sources hx)
  · exact fun x hx y _ u i h ↦ absurd h.mem_arcs (not_arc_of_mem_sources hx)

theorem toLex_lt_of_idxOf_lt {i j : Nat} (hy : y ∈ g.order) (hi : g.Releases u i x)
    (hj : g.Releases v j y) (h : g.order.idxOf x < g.order.idxOf y) :
    toLex (g.order.idxOf u, i) < toLex (g.order.idxOf v, j) := by
  obtain ⟨v', j', hj', hkey⟩ := rel_of_idxOf_lt g.pairwise_releasedBefore hy h u i hi
  obtain ⟨rfl, rfl⟩ := hj'.unique hy hj
  exact hkey

/-- **Ties.** Of two ids that are released, the one that is released before the other comes first.
-/
theorem idxOf_lt_idxOf_iff {i j : Nat} (hx : x ∈ g.order) (hy : y ∈ g.order)
    (hi : g.Releases u i x) (hj : g.Releases v j y) :
    g.order.idxOf x < g.order.idxOf y ↔
      toLex (g.order.idxOf u, i) < toLex (g.order.idxOf v, j) := by
  refine ⟨toLex_lt_of_idxOf_lt hy hi hj, fun hkey ↦ ?_⟩
  rcases Nat.lt_trichotomy (g.order.idxOf x) (g.order.idxOf y) with hlt | heq | hgt
  · exact hlt
  · obtain rfl : x = y := (List.idxOf_inj hx).mp heq
    obtain ⟨rfl, rfl⟩ := hi.unique hx hj
    exact absurd hkey (lt_irrefl _)
  · exact absurd hkey (lt_asymm (toLex_lt_of_idxOf_lt hx hj hi hgt))

/-- Ids that wait for nothing come in the order of the vertices. -/
theorem idxOf_lt_idxOf_iff_of_sources (hx : x ∈ g.sources) (hy : y ∈ g.sources) :
    g.order.idxOf x < g.order.idxOf y ↔ g.vertices.idxOf x < g.vertices.idxOf y := by
  have hvertices : g.sources.Pairwise fun u v ↦ g.vertices.idxOf u < g.vertices.idxOf v := by
    rw [sources_eq_eraseDups]
    exact (pairwise_idxOf_eraseDups g.vertices).filter _
  have hforward : ∀ {x y}, x ∈ g.sources → y ∈ g.sources →
      g.sources.idxOf x < g.sources.idxOf y →
        g.order.idxOf x < g.order.idxOf y ∧ g.vertices.idxOf x < g.vertices.idxOf y := by
    intro x y hx hy h
    refine ⟨?_, rel_of_idxOf_lt hvertices hy h⟩
    rw [← order_filter_inDegree] at h hx hy
    exact idxOf_lt_of_filter (List.mem_filter.mp hx).2 (List.mem_filter.mp hy).2 h
  rcases Nat.lt_trichotomy (g.sources.idxOf x) (g.sources.idxOf y) with hlt | heq | hgt
  · exact iff_of_true (hforward hx hy hlt).1 (hforward hx hy hlt).2
  · obtain rfl : x = y := (List.idxOf_inj hx).mp heq
    exact iff_of_false (lt_irrefl _) (lt_irrefl _)
  · exact iff_of_false (hforward hy hx hgt).1.not_gt (hforward hy hx hgt).2.not_gt

/-! ## Depth -/

/-- The sources of the arcs into a vertex, in the order of the arcs. -/
def predecessors (g : Digraph α) (v : α) : List α :=
  (g.arcs.filter fun a ↦ a.2 = v).map Prod.fst

theorem mem_predecessors : u ∈ g.predecessors v ↔ g.Arc u v := by
  simp [predecessors, Arc]

/-- The depth of an id of the order: zero if no arc enters it, else one more than the greatest depth
of the source of an arc into it. -/
def depth (g : Digraph α) (v : α) : Nat :=
  if hv : v ∈ g.order then (g.predecessors v).toFinset.attach.sup fun u ↦ depth g u.1 + 1 else 0
termination_by g.order.idxOf v
decreasing_by
  exact g.precedes_order _ _ (mem_predecessors.mp (List.mem_toFinset.mp u.2)) hv

theorem depth_eq (hv : v ∈ g.order) :
    g.depth v = (g.predecessors v).toFinset.sup fun u ↦ g.depth u + 1 := by
  rw [depth, dif_pos hv, Finset.sup_attach _ fun u ↦ g.depth u + 1]

theorem depth_lt_of_arc (ha : g.Arc u v) (hv : v ∈ g.order) : g.depth u < g.depth v := by
  rw [depth_eq hv]
  exact Finset.le_sup (f := fun u ↦ g.depth u + 1) (List.mem_toFinset.mpr (mem_predecessors.mpr ha))

theorem exists_depth_eq (hv : v ∈ g.order) (ha : g.Arc u v) :
    ∃ t, g.Arc t v ∧ g.depth v = g.depth t + 1 := by
  have hne : (g.predecessors v).toFinset.Nonempty :=
    ⟨u, List.mem_toFinset.mpr (mem_predecessors.mpr ha)⟩
  obtain ⟨t, ht, heq⟩ := Finset.exists_mem_eq_sup _ hne fun u ↦ g.depth u + 1
  exact ⟨t, mem_predecessors.mp (List.mem_toFinset.mp ht), (depth_eq hv).trans heq⟩

theorem depth_eq_zero_iff (hv : v ∈ g.order) : g.depth v = 0 ↔ ∀ u, ¬g.Arc u v := by
  constructor
  · intro h u ha
    have := depth_lt_of_arc ha hv
    omega
  · intro h
    have hnone : g.predecessors v = [] :=
      List.eq_nil_iff_forall_not_mem.mpr fun u hu ↦ h u (mem_predecessors.mp hu)
    rw [depth_eq hv, hnone]
    rfl

/-- **Depth never goes down along the order.** -/
theorem depth_le_depth (hu : u ∈ g.order) (hv : v ∈ g.order)
    (h : g.order.idxOf u ≤ g.order.idxOf v) : g.depth u ≤ g.depth v := by
  -- by the place of `v`; of the two sources that release `u` and `v` the former comes first
  induction hn : g.order.idxOf v using Nat.strong_induction_on generalizing u v with
  | _ n ih =>
    subst hn
    rcases h.eq_or_lt with heq | hlt
    · rw [(List.idxOf_inj hu).mp heq]
    by_cases harc : ∃ t, g.Arc t u
    · obtain ⟨t, ht⟩ := harc
      obtain ⟨r, hr, hdepth⟩ := exists_depth_eq hu ht
      obtain ⟨s, i, hs⟩ := exists_releases hu ht
      obtain ⟨s', j, hs', hkey⟩ := rel_of_idxOf_lt g.pairwise_releasedBefore hv hlt s i hs
      have hsmem : s ∈ g.order := g.precedes_order.mem hs.mem_arcs hu
      have hsu : g.order.idxOf s < g.order.idxOf u := g.precedes_order _ _ hs.mem_arcs hu
      have hs'v : g.order.idxOf s' < g.order.idxOf v := g.precedes_order _ _ hs'.mem_arcs hv
      have hss' : g.order.idxOf s ≤ g.order.idxOf s' := Prod.Lex.monotone_fst _ _ hkey.le
      calc g.depth u = g.depth r + 1 := hdepth
        _ ≤ g.depth s + 1 := Nat.succ_le_succ (ih _ (hsu.trans hlt)
            (g.precedes_order.mem hr hu) hsmem (hs.source_last r hr) rfl)
        _ ≤ g.depth s' + 1 := Nat.succ_le_succ (ih _ hs'v hsmem
            (g.precedes_order.mem hs'.mem_arcs hv) hss' rfl)
        _ ≤ g.depth v := depth_lt_of_arc hs'.mem_arcs hv
    · rw [(depth_eq_zero_iff hu).mpr fun t ht ↦ harc ⟨t, ht⟩]
      exact Nat.zero_le _

theorem pairwise_depth (g : Digraph α) : g.order.Pairwise fun u v ↦ g.depth u ≤ g.depth v := by
  rw [List.pairwise_iff_getElem]
  intro i j hi hj hij
  refine depth_le_depth (List.getElem_mem hi) (List.getElem_mem hj) ?_
  rw [g.nodup_order.idxOf_getElem, g.nodup_order.idxOf_getElem]
  exact hij.le

theorem mem_sources_iff : v ∈ g.sources ↔ v ∈ g.order ∧ g.depth v = 0 := by
  rw [← order_filter_inDegree, List.mem_filter, decide_eq_true_iff, inDegree_eq_zero_iff]
  exact and_congr_right fun hv ↦ (depth_eq_zero_iff hv).symm

theorem exists_releases_of_depth_pos (hv : v ∈ g.order) (h : 0 < g.depth v) :
    ∃ u i, g.Releases u i v := by
  by_contra hnone
  have hzero : g.depth v = 0 := (depth_eq_zero_iff hv).mpr fun u ha ↦ hnone (exists_releases hv ha)
  omega

end Digraph

end AgentFlow
