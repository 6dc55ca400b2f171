import AgentFlow.Proofs.Digraph.Order

/-!
# The order of a copied part

When a graph is cut down to some of its ids and these are renamed, the order of what is left is what
is left of the order: under two conditions. The part has to hold the sources of all arcs into its
ids (`Copies.closed`), for then nothing outside decides when one of its ids joins. And the run has
to start alike, since the vertices may come in another order than before (`Copies.order_eq`).

The second condition is met when the vertices of the copy come in the order that the first run gave
them (`Copies.order_eq_range`): this order starts with the ids that wait for nothing. So a graph
whose vertices are the places of an order, in turn, has these places as its order, which is why a
second round of sorting and numbering changes nothing.

## One simulation

Both runs go step by step, so the proof is a single simulation (`Copies.run_eq`). A step at an id of
the part is one step of the copy, and the same ids join up to their names; a step at any other id is
none, and no id of the part joins.
-/

namespace AgentFlow

namespace Digraph

variable {α β : Type} [DecidableEq α] [DecidableEq β]

/-! ## Lists -/

theorem dedup_filter (p : α → Bool) (l : List α) : (l.filter p).dedup = l.dedup.filter p := by
  induction l with
  | nil => rfl
  | cons a l ih =>
    by_cases hp : p a
    · rw [List.filter_cons_of_pos hp]
      by_cases ha : a ∈ l
      · rw [List.dedup_cons_of_mem ha, List.dedup_cons_of_mem (List.mem_filter.mpr ⟨ha, hp⟩), ih]
      · rw [List.dedup_cons_of_notMem ha, List.filter_cons_of_pos hp,
          List.dedup_cons_of_notMem fun h ↦ ha (List.mem_of_mem_filter h), ih]
    · rw [List.filter_cons_of_neg hp, ih]
      by_cases ha : a ∈ l
      · rw [List.dedup_cons_of_mem ha]
      · rw [List.dedup_cons_of_notMem ha, List.filter_cons_of_neg hp]

theorem dedup_map {f : α → β} {l : List α} (hf : ∀ a ∈ l, ∀ b ∈ l, f a = f b → a = b) :
    (l.map f).dedup = l.dedup.map f := by
  induction l with
  | nil => rfl
  | cons a l ih =>
    have ih := ih fun x hx y hy ↦ hf x (List.mem_cons_of_mem a hx) y (List.mem_cons_of_mem a hy)
    rw [List.map_cons]
    by_cases ha : a ∈ l
    · rw [List.dedup_cons_of_mem ha, List.dedup_cons_of_mem (List.mem_map_of_mem ha), ih]
    · rw [List.dedup_cons_of_notMem ha, List.map_cons, List.dedup_cons_of_notMem, ih]
      intro h
      obtain ⟨b, hb, hab⟩ := List.mem_map.mp h
      exact ha (hf b (List.mem_cons_of_mem a hb) a List.mem_cons_self hab ▸ hb)

/-! ## Copies -/

/-- `g'` has the arcs of `g` into the ids of a part `p`, with each id renamed by `f`. -/
structure Copies (g : Digraph α) (p : α → Bool) (f : α → β) (g' : Digraph β) : Prop where
  /-- With an id, the part holds the sources of the arcs into it. -/
  closed : ∀ {u v}, g.Arc u v → p v → p u
  /-- Ids of the part keep different names. -/
  inj : ∀ {u v}, p u → p v → f u = f v → u = v
  /-- The arcs of the copy. -/
  arcs_eq : g'.arcs = (g.arcs.filter fun a ↦ p a.2).map (Prod.map f f)

namespace Copies

variable {g : Digraph α} {p : α → Bool} {f : α → β} {g' : Digraph β}

omit [DecidableEq α] [DecidableEq β] in
theorem mem_map_filter_iff (c : g.Copies p f g') {v : α} (hv : p v) {l : List α} :
    f v ∈ (l.filter p).map f ↔ v ∈ l := by
  rw [List.mem_map]
  constructor
  · rintro ⟨u, hu, huv⟩
    obtain ⟨hul, hup⟩ := List.mem_filter.mp hu
    exact c.inj hup hv huv ▸ hul
  · exact fun h ↦ ⟨v, List.mem_filter.mpr ⟨h, hv⟩, rfl⟩

omit [DecidableEq α] [DecidableEq β] in
theorem arc_iff (c : g.Copies p f g') {t : β} {v : α} (hv : p v) :
    g'.Arc t (f v) ↔ ∃ u, g.Arc u v ∧ f u = t := by
  rw [Arc, c.arcs_eq, List.mem_map]
  constructor
  · rintro ⟨⟨u, x⟩, ha, heq⟩
    obtain ⟨hmem, hx⟩ := List.mem_filter.mp ha
    obtain ⟨rfl, hxv⟩ := Prod.mk.inj heq
    obtain rfl : x = v := c.inj hx hv hxv
    exact ⟨u, hmem, rfl⟩
  · rintro ⟨u, ha, rfl⟩
    exact ⟨(u, v), List.mem_filter.mpr ⟨ha, hv⟩, rfl⟩

theorem successors_eq (c : g.Copies p f g') {v : α} (hv : p v) :
    g'.successors (f v) = ((g.successors v).filter p).map f := by
  rw [successors, successors, c.arcs_eq, List.filter_map, List.map_map, List.filter_map,
    List.map_map, List.filter_filter, List.filter_filter]
  refine congrArg (List.map _) (List.filter_congr fun a ha ↦ ?_)
  by_cases hp : p a.2
  · have hiff : f a.1 = f v ↔ a.1 = v := ⟨c.inj (c.closed ha hp) hv, congrArg f⟩
    simp [hp, hiff]
  · simp [hp]

theorem unsettled_eq_zero_iff (c : g.Copies p f g') {v : α} (hv : p v) (l : List α) :
    g'.unsettled ((l.filter p).map f) (f v) = 0 ↔ g.unsettled l v = 0 := by
  rw [unsettled_eq_zero, unsettled_eq_zero]
  constructor
  · intro h u hu
    exact (c.mem_map_filter_iff (c.closed hu hv)).mp (h (f u) ((c.arc_iff hv).mpr ⟨u, hu, rfl⟩))
  · intro h t ht
    obtain ⟨u, hu, rfl⟩ := (c.arc_iff hv).mp ht
    exact (c.mem_map_filter_iff (c.closed hu hv)).mpr (h u hu)

theorem inDegree_eq_zero_iff (c : g.Copies p f g') {v : α} (hv : p v) :
    g'.inDegree (f v) = 0 ↔ g.inDegree v = 0 := by
  rw [← unsettled_nil, ← unsettled_nil]
  exact c.unsettled_eq_zero_iff hv []

/-! ### The simulation -/

variable {done queue : List α} {w : Waiting α} {w' : Waiting β}

/-- The same ids join in both runs. -/
theorem settled_eq (c : g.Copies p f g') {v : α} (hv : p v) {queue' : List β}
    (h : g.Underway done (v :: queue) w)
    (h' : g'.Underway ((done.filter p).map f) (f v :: queue') w') :
    (Waiting.settle (g'.successors (f v)) w').1
      = ((Waiting.settle (g.successors v) w).1.filter p).map f := by
  have hdone : (done.filter p).map f ++ [f v] = ((done ++ [v]).filter p).map f := by simp [hv]
  rw [h.settled_eq, h'.settled_eq, hdone, c.successors_eq hv, dedup_map, dedup_filter,
    List.filter_map, List.filter_filter, List.filter_filter]
  · refine congrArg (List.map f) (List.filter_congr fun u _ ↦ ?_)
    by_cases hu : p u
    · simp only [Function.comp_apply, hu, Bool.and_true, Bool.true_and, c.unsettled_eq_zero_iff hu]
    · simp [hu]
  · exact fun a ha b hb ↦ c.inj (List.mem_filter.mp ha).2 (List.mem_filter.mp hb).2

/-- **The simulation.** -/
theorem run_eq (c : g.Copies p f g') (h : g.Underway done queue w)
    (h' : g'.Underway ((done.filter p).map f) ((queue.filter p).map f) w') :
    g'.run ((queue.filter p).map f) w' = ((g.run queue w).filter p).map f := by
  fun_induction run g queue w generalizing done w'
  case case1 w => simp [run]
  case case2 v queue w _ ih =>
    by_cases hv : p v
    · -- both runs step: the same ids join, so the queues stay alike
      rw [List.filter_cons_of_pos hv, List.map_cons] at h' ⊢
      have hjoin := c.settled_eq hv h h'
      have hstep := h'.step
      rw [hjoin, ← List.map_append, ← List.filter_append] at hstep
      have hdone : (done.filter p).map f ++ [f v] = ((done ++ [v]).filter p).map f := by simp [hv]
      rw [hdone] at hstep
      rw [run, hjoin, ← List.map_append, ← List.filter_append, ih h.step hstep,
        List.filter_cons_of_pos hv, List.map_cons]
    · -- only the first run steps: what joins is outside the part, since `v` is
      have hjoin : (Waiting.settle (g.successors v) w).1.filter p = [] := by
        rw [List.filter_eq_nil_iff]
        exact fun u hu hpu ↦ hv (c.closed (h.mem_settled_iff.mp hu).1 hpu)
      have hqueue : (queue ++ (Waiting.settle (g.successors v) w).1).filter p = queue.filter p := by
        rw [List.filter_append, hjoin, List.append_nil]
      have hdone : (done ++ [v]).filter p = done.filter p := by simp [hv]
      rw [List.filter_cons_of_neg hv] at h' ⊢
      rw [List.filter_cons_of_neg hv, ← ih h.step (by rwa [hqueue, hdone]), hqueue]

/-- **The order of a copy** that starts alike. -/
theorem order_eq (c : g.Copies p f g') (hsources : g'.sources = (g.sources.filter p).map f) :
    g'.order = (g.order.filter p).map f := by
  have h : g.Underway [] g.sources g.waiting := g.underway_sources
  have h' : g'.Underway [] g'.sources g'.waiting := g'.underway_sources
  rw [hsources] at h'
  rw [order, hsources, order]
  exact c.run_eq h h'

end Copies

/-! ## Starting alike -/

/-- Ids that join wait at the end of the queue, so those that are in it leave it first. -/
theorem prefix_run (g : Digraph α) (queue : List α) (w : Waiting α) :
    queue <+: g.run queue w := by
  fun_induction run g queue w
  case case1 w => exact List.prefix_rfl
  case case2 v queue w _ ih =>
    exact List.prefix_cons_inj v |>.mpr ((List.prefix_append _ _).trans ih)

/-- The order starts with the ids that wait for nothing, and holds no other such ids. -/
theorem order_filter_inDegree (g : Digraph α) :
    (g.order.filter fun v ↦ g.inDegree v = 0) = g.sources := by
  obtain ⟨rest, hrest⟩ : g.sources <+: g.order := g.prefix_run g.sources g.waiting
  have hnodup := g.nodup_order
  rw [← hrest, List.nodup_append] at hnodup
  rw [← hrest, List.filter_append, List.filter_eq_self.mpr, List.filter_eq_nil_iff.mpr,
    List.append_nil]
  · intro v hv hzero
    have hmem : v ∈ g.order := hrest ▸ List.mem_append_right _ hv
    have hsource : v ∈ g.sources := by
      rw [sources_eq, List.mem_filter, mem_entered]
      exact ⟨(mem_order_iff.mp hmem).1, hzero⟩
    exact hnodup.2.2 v hsource v hv rfl
  · intro v hv
    rw [sources_eq] at hv
    exact (List.mem_filter.mp hv).2

theorem eraseDups_eq_self {l : List α} (h : l.Nodup) : l.eraseDups = l := by
  induction l with
  | nil => rfl
  | cons a l ih =>
    obtain ⟨ha, hl⟩ := List.nodup_cons.mp h
    rw [List.eraseDups_cons, List.filter_eq_self.mpr, ih hl]
    intro b hb
    simpa using fun hba : b = a ↦ ha (hba ▸ hb)

/-- Targets of arcs wait for something, so only vertices wait for nothing. -/
theorem sources_eq_eraseDups (g : Digraph α) :
    g.sources = g.vertices.eraseDups.filter fun v ↦ g.inDegree v = 0 := by
  have htargets : (((g.arcs.map Prod.snd).removeAll g.vertices).eraseDups.filter
      fun v ↦ g.inDegree v = 0) = [] := by
    rw [List.filter_eq_nil_iff]
    intro v hv hzero
    rw [List.mem_eraseDups, List.removeAll, List.mem_filter] at hv
    obtain ⟨⟨u, x⟩, ha, rfl⟩ := List.mem_map.mp hv.1
    exact inDegree_eq_zero_iff.mp (of_decide_eq_true hzero) u ha
  rw [sources_eq, entered, List.eraseDups_append, List.filter_append, htargets, List.append_nil]

theorem mem_vertices_of_mem_sources {g : Digraph α} {v : α} (h : v ∈ g.sources) :
    v ∈ g.vertices := by
  rw [sources_eq_eraseDups] at h
  exact List.mem_eraseDups.mp (List.mem_of_mem_filter h)

theorem not_arc_of_mem_sources {g : Digraph α} {u v : α} (h : v ∈ g.sources) : ¬g.Arc u v := by
  rw [sources_eq] at h
  exact inDegree_eq_zero_iff.mp (of_decide_eq_true (List.mem_filter.mp h).2) u

theorem sources_eq_of_nodup {g : Digraph α} (h : g.vertices.Nodup) :
    g.sources = g.vertices.filter fun v ↦ g.inDegree v = 0 := by
  rw [sources_eq_eraseDups, eraseDups_eq_self h]

/-! ## Places in an order -/

theorem filter_mem_of_sublist {l m : List α} (h : l.Sublist m) (hm : m.Nodup) :
    (m.filter fun v ↦ v ∈ l) = l := by
  induction h with
  | slnil => rfl
  | cons a hl ih =>
    obtain ⟨ha, hm⟩ := List.nodup_cons.mp hm
    rw [List.filter_cons_of_neg (by simpa using fun hal ↦ ha (hl.subset hal)), ih hm]
  | cons_cons a hl ih =>
    obtain ⟨ha, hm⟩ := List.nodup_cons.mp hm
    rw [List.filter_cons_of_pos (by simp)]
    refine congrArg (a :: ·) (Eq.trans (List.filter_congr fun b hb ↦ ?_) (ih hm))
    have hba : b ≠ a := fun hba ↦ ha (hba ▸ hb)
    simp [hba]

omit [DecidableEq α] in
theorem map_idxOf_eq_range [BEq α] [LawfulBEq α] {l : List α} (h : l.Nodup) :
    l.map l.idxOf = List.range l.length := by
  refine List.ext_getElem (by simp) fun i hi hi' ↦ ?_
  rw [List.getElem_map, h.idxOf_getElem, List.getElem_range]

/-! ## Copies with known vertices -/

namespace Copies

variable {g : Digraph α} {p : α → Bool} {f : α → β} {g' : Digraph β}

theorem sources_eq (c : g.Copies p f g') {l : List α} (hl : ∀ v ∈ l, p v)
    (hvertices : g'.vertices = l.map f) (hnodup : g'.vertices.Nodup) :
    g'.sources = (l.filter fun v ↦ g.inDegree v = 0).map f := by
  rw [sources_eq_of_nodup hnodup, hvertices, List.filter_map]
  refine congrArg (List.map f) (List.filter_congr fun v hv ↦ ?_)
  rw [Function.comp_apply, decide_eq_decide, c.inDegree_eq_zero_iff (hl v hv)]

/-- **The order of a renamed graph.** -/
theorem order_eq_map (c : g.Copies (fun _ ↦ true) f g') (hnodup : g.vertices.Nodup)
    (hvertices : g'.vertices = g.vertices.map f) : g'.order = g.order.map f := by
  have hnodup' : g'.vertices.Nodup := by
    rw [hvertices]
    exact List.Nodup.map_on (fun u _ v _ huv ↦ c.inj rfl rfl huv) hnodup
  have hsources : g'.sources = (g.sources.filter fun _ ↦ true).map f := by
    rw [c.sources_eq (fun _ _ ↦ rfl) hvertices hnodup', List.filter_true,
      ← sources_eq_of_nodup hnodup]
  rw [c.order_eq hsources, List.filter_true]

/-- **The order of places.** Let the ids of a part be listed in their order, and let the copy of the
part have the places in the list for names and the places in turn for vertices. Then it has them
in turn for its order. -/
theorem order_eq_range {f : α → Nat} {g' : Digraph Nat} (c : g.Copies p f g') {ids : List α}
    (hp : ∀ v, p v ↔ v ∈ ids) (hids : ids.Sublist g.order)
    (hplaces : ids.map f = List.range ids.length)
    (hvertices : g'.vertices = List.range ids.length) : g'.order = List.range ids.length := by
  have hpart : g.order.filter p = ids := by
    refine Eq.trans (List.filter_congr fun v _ ↦ ?_) (filter_mem_of_sublist hids g.nodup_order)
    rw [Bool.eq_iff_iff, decide_eq_true_iff, hp]
  have hsources : g'.sources = (g.sources.filter p).map f := by
    rw [← g.order_filter_inDegree, List.filter_comm, hpart]
    refine c.sources_eq (fun v ↦ (hp v).mpr) ?_ (hvertices ▸ List.nodup_range)
    rw [hvertices, hplaces]
  rw [c.order_eq hsources, hpart, hplaces]

end Copies

end Digraph

end AgentFlow
