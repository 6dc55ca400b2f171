import AgentFlow.Proofs.Digraph.Copy
import Mathlib.Data.Set.Function

/-!
# Renamed graphs

A graph is renamed by renaming its vertices and both ends of its arcs. As long as the ids that occur
(`Digraph.ids`) keep different names, the order of the renamed graph is the renamed order
(`Digraph.order_rename`), whatever the graph looks like: vertices may come twice, arcs may name ids
that are no vertices, and there may be cycles. The renamed graph is a copy of the whole graph, so
all that is left to see is that both runs start with the same ids.
-/

namespace AgentFlow

namespace Digraph

variable {α β : Type} [DecidableEq α] [DecidableEq β] {f : α → β}

/-! ## First occurrences -/

theorem eraseDups_map {l : List α} (hf : Set.InjOn f {v | v ∈ l}) :
    (l.map f).eraseDups = l.eraseDups.map f := by
  -- by length, since copies of the first element are taken out before the rest is gone through
  induction hn : l.length using Nat.strong_induction_on generalizing l with
  | h n ih =>
    cases l with
    | nil => rfl
    | cons a l =>
      have hrest : (l.map f).filter (fun b ↦ !b == f a) = (l.filter fun b ↦ !b == a).map f := by
        rw [List.filter_map]
        refine congrArg (List.map f) (List.filter_congr fun b hb ↦ ?_)
        have hiff : f b = f a ↔ b = a :=
          ⟨fun h ↦ hf (List.mem_cons_of_mem a hb) List.mem_cons_self h, congrArg f⟩
        rw [Function.comp_apply, Bool.eq_iff_iff]
        simp [hiff]
      have hlength : (l.filter fun b ↦ !b == a).length < n := by
        rw [← hn]
        exact Nat.lt_succ_of_le (List.length_filter_le _ l)
      have hinj : Set.InjOn f {v | v ∈ l.filter fun b ↦ !b == a} :=
        hf.mono fun b hb ↦ List.mem_cons_of_mem a (List.mem_of_mem_filter hb)
      rw [List.map_cons, List.eraseDups_cons, List.eraseDups_cons, List.map_cons, hrest,
        ih _ hlength hinj rfl]

/-! ## Renaming -/

/-- The graph with every id renamed. -/
def rename (f : α → β) (g : Digraph α) : Digraph β :=
  ⟨g.vertices.map f, g.arcs.map (Prod.map f f)⟩

/-- The ids that occur: the vertices and both ends of the arcs. -/
def ids (g : Digraph α) : List α := g.vertices ++ g.arcs.map Prod.fst ++ g.arcs.map Prod.snd

variable {g : Digraph α}

omit [DecidableEq α] in
theorem mem_ids_of_arc {u v : α} (h : g.Arc u v) : u ∈ g.ids ∧ v ∈ g.ids :=
  ⟨List.mem_append_left _ (List.mem_append_right _ (List.mem_map_of_mem h)),
    List.mem_append_right _ (List.mem_map_of_mem h)⟩

omit [DecidableEq α] in
theorem mem_ids_of_entered {v : α} (h : g.Entered v) : v ∈ g.ids := by
  obtain hv | ⟨u, hu⟩ := h
  · exact List.mem_append_left _ (List.mem_append_left _ hv)
  · exact (mem_ids_of_arc hu).2

theorem mem_ids_of_mem_order {v : α} (h : v ∈ g.order) : v ∈ g.ids :=
  mem_ids_of_entered (mem_order_iff.mp h).1

omit [DecidableEq β] in
theorem copies_rename (hf : Set.InjOn f {v | v ∈ g.ids}) :
    g.Copies (fun v ↦ v ∈ g.ids) f (g.rename f) where
  closed hu _ := by simpa using (mem_ids_of_arc hu).1
  inj hu hv := hf (of_decide_eq_true hu) (of_decide_eq_true hv)
  arcs_eq := by
    have hall : g.arcs.filter (fun a ↦ a.2 ∈ g.ids) = g.arcs :=
      List.filter_eq_self.mpr fun a ha ↦ decide_eq_true (mem_ids_of_arc ha).2
    rw [hall]
    rfl

theorem entered_rename (hf : Set.InjOn f {v | v ∈ g.ids}) :
    (g.rename f).entered = g.entered.map f := by
  have htargets : (g.rename f).arcs.map Prod.snd = (g.arcs.map Prod.snd).map f := by
    rw [rename, List.map_map, List.map_map]
    rfl
  have hinj : Set.InjOn f {v | v ∈ g.vertices ++ g.arcs.map Prod.snd} := by
    refine hf.mono fun v hv ↦ ?_
    obtain hv | hv := List.mem_append.mp hv
    · exact List.mem_append_left _ (List.mem_append_left _ hv)
    · exact List.mem_append_right _ hv
  rw [entered, htargets, rename, ← List.map_append, eraseDups_map hinj, entered]

theorem sources_rename (hf : Set.InjOn f {v | v ∈ g.ids}) :
    (g.rename f).sources = g.sources.map f := by
  rw [sources_eq, sources_eq, entered_rename hf, List.filter_map]
  refine congrArg (List.map f) (List.filter_congr fun v hv ↦ ?_)
  have hmem : v ∈ g.ids := mem_ids_of_entered (mem_entered.mp hv)
  rw [Function.comp_apply, decide_eq_decide]
  exact (copies_rename hf).inDegree_eq_zero_iff (decide_eq_true hmem)

/-- **The order of a renamed graph** is the renamed order, if ids that occur keep different names.
-/
theorem order_rename (hf : Set.InjOn f {v | v ∈ g.ids}) :
    (g.rename f).order = g.order.map f := by
  have hall : ∀ l : List α, (∀ v ∈ l, v ∈ g.ids) → l.filter (fun v ↦ v ∈ g.ids) = l :=
    fun l hl ↦ List.filter_eq_self.mpr fun v hv ↦ decide_eq_true (hl v hv)
  have hsources : ∀ v ∈ g.sources, v ∈ g.ids := by
    intro v hv
    rw [sources_eq] at hv
    exact mem_ids_of_entered (mem_entered.mp (List.mem_of_mem_filter hv))
  rw [(copies_rename hf).order_eq, hall _ fun v ↦ mem_ids_of_mem_order]
  rw [hall _ hsources, sources_rename hf]

end Digraph

end AgentFlow
