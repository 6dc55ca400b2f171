import AgentFlow.Digraph.Order
import Mathlib.Data.List.Dedup
import Mathlib.Data.Set.Finite.List
import Mathlib.Order.WellFounded
import Mathlib.Data.Fintype.Card

/-!
# What the topological order holds

The order is what a queue gives off, so every statement about it rests on one invariant of the
queue (`Underway`): the ids that left the queue or stand in it are exactly the entered ids that wait
for no unsettled arc, each once, and each behind the sources of the arcs into it. One step keeps
the invariant, hence a whole run does, and when the queue is empty the invariant reads

* an id is in the order if and only if it is entered and the sources of all arcs into it are in the
  order (`mem_order_iff`);
* the source of an arc stands before its target (`precedes_order`).

The first of these is an equation and not yet a description: it holds of smaller sets as well when
there are cycles. That the order is the largest such set, and thus consists of all ids that nothing
holds back (`mem_order_iff_not_heldBack`), is where finiteness comes in.

## The ids that join at one step

Settling the arcs out of an id takes their targets in turn and lets an id join when its count falls
to zero. Under the invariant that is its last occurrence among the targets, so the ids that join are
the targets without repetitions, the last occurrence counting, filtered by what they still wait for
(`Underway.settled_eq`). Statements that compare two runs need this form.
-/

namespace AgentFlow

namespace Digraph

variable {α : Type} [DecidableEq α]

/-! ## Waiting lists -/

namespace Waiting

theorem count?_cons (u v : α) (n : Nat) (w : Waiting α) :
    count? ((u, n) :: w) v = if u = v then some n else count? w v := by
  by_cases h : u = v <;> simp [count?, h]

theorem count?_arrive (u v : α) (w : Waiting α) :
    count? (arrive v w) u = if u = v then (count? w u).map (· - 1) else count? w u := by
  induction w with
  | nil => simp [arrive, count?]
  | cons p rest ih =>
    obtain ⟨x, n⟩ := p
    by_cases hx : x = v
    · subst hx
      rw [arrive, if_pos rfl, count?_cons, count?_cons]
      by_cases hu : u = x
      · rw [if_pos hu, if_pos hu.symm, if_pos hu.symm, Option.map_some]
      · rw [if_neg hu, if_neg (Ne.symm hu), if_neg (Ne.symm hu)]
    · rw [arrive, if_neg hx, count?_cons, count?_cons, ih]
      by_cases hu : x = u
      · rw [if_pos hu, if_pos hu, if_neg fun h ↦ hx (hu.trans h)]
      · rw [if_neg hu, if_neg hu]

theorem count?_settle (vs : List α) (w : Waiting α) (u : α) :
    count? (settle vs w).2 u = (count? w u).map (· - vs.count u) := by
  induction vs generalizing w with
  | nil => simp [settle]
  | cons v vs ih =>
    rw [settle, ih, count?_arrive]
    by_cases hu : u = v
    · subst hu
      rw [if_pos rfl, Option.map_map, List.count_cons_self]
      congr 1
      funext n
      simp only [Function.comp_apply]
      omega
    · rw [if_neg hu, List.count_cons_of_ne (Ne.symm hu)]

/-- An id joins at its last occurrence, if no more arcs are settled than it waits for. -/
theorem settle_fst (vs : List α) (w : Waiting α)
    (hw : ∀ u ∈ vs, ∃ n, count? w u = some n ∧ vs.count u ≤ n) :
    (settle vs w).1 = vs.dedup.filter fun u ↦ count? w u = some (vs.count u) := by
  induction vs generalizing w with
  | nil => simp [settle]
  | cons v vs ih =>
    obtain ⟨n, hn, hle⟩ := hw v List.mem_cons_self
    rw [List.count_cons_self] at hle
    have hrest : ∀ u ∈ vs, ∃ m, count? (arrive v w) u = some m ∧ vs.count u ≤ m := by
      intro u hu
      rw [count?_arrive]
      by_cases huv : u = v
      · subst huv
        exact ⟨n - 1, by rw [if_pos rfl, hn, Option.map_some], by omega⟩
      · rw [if_neg huv]
        obtain ⟨m, hm, hlem⟩ := hw u (List.mem_cons_of_mem v hu)
        rw [List.count_cons_of_ne (Ne.symm huv)] at hlem
        exact ⟨m, hm, hlem⟩
    have hsame : ∀ u, count? (arrive v w) u = some (vs.count u) ↔
        count? w u = some ((v :: vs).count u) := by
      intro u
      rw [count?_arrive]
      by_cases huv : u = v
      · subst huv
        rw [if_pos rfl, hn, Option.map_some, List.count_cons_self, Option.some_inj,
          Option.some_inj]
        omega
      · rw [if_neg huv, List.count_cons_of_ne (Ne.symm huv)]
    have hlast : count? w v = some 1 ↔ v ∉ vs ∧ count? w v = some ((v :: vs).count v) := by
      rw [hn, Option.some_inj, Option.some_inj, List.count_cons_self, ← List.count_eq_zero]
      omega
    simp only [settle, ih _ hrest, hsame]
    by_cases hv : v ∈ vs
    · rw [List.dedup_cons_of_mem hv, if_neg fun h ↦ (hlast.mp h).1 hv]
    · rw [List.dedup_cons_of_notMem hv, List.filter_cons]
      by_cases h1 : count? w v = some 1
      · rw [if_pos h1, if_pos (decide_eq_true (hlast.mp h1).2)]
      · rw [if_neg h1, if_neg fun h ↦ h1 (hlast.mpr ⟨hv, of_decide_eq_true h⟩)]

end Waiting

/-! ## Unsettled arcs -/

/-- The number of arcs into an id whose source is not among those that are done. -/
def unsettled (g : Digraph α) (done : List α) (v : α) : Nat :=
  g.arcs.countP fun a ↦ a.2 = v ∧ a.1 ∉ done

@[simp] theorem unsettled_nil (g : Digraph α) (v : α) : g.unsettled [] v = g.inDegree v := by
  simp [unsettled, inDegree]

theorem unsettled_eq_zero {g : Digraph α} {done : List α} {v : α} :
    g.unsettled done v = 0 ↔ ∀ u, g.Arc u v → u ∈ done := by
  rw [unsettled, List.countP_eq_zero]
  constructor
  · intro h u hu
    by_contra hdone
    exact h (u, v) hu (by simp [hdone])
  · rintro h ⟨u, x⟩ ha hcond
    obtain ⟨rfl, hu⟩ : x = v ∧ u ∉ done := by simpa using hcond
    exact hu (h u ha)

theorem inDegree_eq_zero_iff {g : Digraph α} {v : α} :
    g.inDegree v = 0 ↔ ∀ u, ¬g.Arc u v := by
  rw [← unsettled_nil, unsettled_eq_zero]
  simp only [List.not_mem_nil]

theorem count_successors (g : Digraph α) (u v : α) :
    (g.successors v).count u = g.arcs.countP fun a ↦ a.1 = v ∧ a.2 = u := by
  rw [successors, List.count, List.countP_map, List.countP_filter]
  refine List.countP_congr fun a _ ↦ ?_
  simp [and_comm]

/-- Settling the arcs out of one more id takes off the arcs from it. -/
theorem unsettled_concat {g : Digraph α} {done : List α} {v : α} (hv : v ∉ done) (u : α) :
    g.unsettled (done ++ [v]) u + (g.successors v).count u = g.unsettled done u := by
  rw [count_successors, unsettled, unsettled,
    List.countP_eq_countP_filter_add g.arcs (fun a ↦ a.2 = u ∧ a.1 ∉ done) fun a ↦ a.1 ≠ v,
    List.countP_filter, List.countP_filter]
  congr 1
  · refine List.countP_congr fun a _ ↦ ?_
    simp [and_assoc]
  · refine List.countP_congr fun a _ ↦ ?_
    by_cases hav : a.1 = v
    · simp [hav, hv]
    · simp [hav]

/-! ## Lists that respect the arcs -/

omit [DecidableEq α] in
/-- Where arcs go forward in a numbering of the ids, so do paths. -/
theorem Leads.lt_of_forward {g : Digraph α} {u v : α} (h : g.Leads u v) (place : α → Nat)
    (hforward : ∀ u v, g.Arc u v → place u < place v) : place u < place v := by
  induction h with
  | single ha => exact hforward _ _ ha
  | tail _ ha ih => exact ih.trans (hforward _ _ ha)

/-- In a list, the source of every arc to a member stands before it. -/
def Precedes (g : Digraph α) (l : List α) : Prop :=
  ∀ u v, g.Arc u v → v ∈ l → l.idxOf u < l.idxOf v

theorem Precedes.mem {g : Digraph α} {l : List α} (h : g.Precedes l) {u v : α} (ha : g.Arc u v)
    (hv : v ∈ l) : u ∈ l :=
  List.idxOf_lt_length_iff.mp ((h u v ha hv).trans (List.idxOf_lt_length_iff.mpr hv))

/-- Ids may be added at the end once the sources of the arcs into them are in the list. -/
theorem Precedes.append {g : Digraph α} {l new : List α} (h : g.Precedes l)
    (hnew : ∀ v ∈ new, v ∉ l ∧ ∀ u, g.Arc u v → u ∈ l) : g.Precedes (l ++ new) := by
  intro u v ha hv
  by_cases hvl : v ∈ l
  · rw [List.idxOf_append_of_mem hvl, List.idxOf_append_of_mem (h.mem ha hvl)]
    exact h u v ha hvl
  · have hvnew : v ∈ new := (List.mem_append.mp hv).resolve_left hvl
    have hul : u ∈ l := (hnew v hvnew).2 u ha
    rw [List.idxOf_append_of_mem hul, List.idxOf_append_of_notMem hvl]
    have := List.idxOf_lt_length_iff.mpr hul
    omega

theorem Precedes.of_leads {g : Digraph α} {l : List α} (h : g.Precedes l) {u v : α}
    (huv : g.Leads u v) (hv : v ∈ l) : l.idxOf u < l.idxOf v := by
  induction huv with
  | single ha => exact h _ _ ha hv
  | tail _ ha ih => exact (ih (h.mem ha hv)).trans (h _ _ ha hv)

theorem Precedes.mem_of_leads {g : Digraph α} {l : List α} (h : g.Precedes l) {u v : α}
    (huv : g.Leads u v) (hv : v ∈ l) : u ∈ l :=
  List.idxOf_lt_length_iff.mp ((h.of_leads huv hv).trans (List.idxOf_lt_length_iff.mpr hv))

/-! ## The run

`done` are the ids that have left the queue, in order. -/

/-- **The invariant of the queue.** -/
structure Underway (g : Digraph α) (done queue : List α) (w : Waiting α) : Prop where
  /-- No id joins twice. -/
  nodup : (done ++ queue).Nodup
  /-- An id has joined as soon as it waits for nothing. -/
  mem_iff : ∀ v, v ∈ done ++ queue ↔ g.Entered v ∧ g.unsettled done v = 0
  /-- The counts are those of the unsettled arcs. -/
  count_eq : ∀ v, g.Entered v → w.count? v = some (g.unsettled done v)
  /-- The source of an arc joins before its target. -/
  precedes : g.Precedes (done ++ queue)

omit [DecidableEq α] in
theorem entered_of_arc {g : Digraph α} {u v : α} (ha : g.Arc u v) : g.Entered v := Or.inr ⟨u, ha⟩

namespace Underway

variable {g : Digraph α} {done queue : List α} {v : α} {w : Waiting α}

theorem notMem_done (h : g.Underway done (v :: queue) w) : v ∉ done := fun hv ↦
  (List.nodup_append.mp h.nodup).2.2 v hv v List.mem_cons_self rfl

/-- **The ids that join** when an id leaves the queue. -/
theorem settled_eq (h : g.Underway done (v :: queue) w) :
    (Waiting.settle (g.successors v) w).1
      = (g.successors v).dedup.filter fun u ↦ g.unsettled (done ++ [v]) u = 0 := by
  have hcount : ∀ u ∈ g.successors v, w.count? u = some (g.unsettled done u) := fun u hu ↦
    h.count_eq u (entered_of_arc (mem_successors.mp hu))
  have hconcat := unsettled_concat (g := g) h.notMem_done
  rw [Waiting.settle_fst _ _ fun u hu ↦ ⟨_, hcount u hu, by have := hconcat u; omega⟩]
  refine List.filter_congr fun u hu ↦ ?_
  have := hconcat u
  rw [decide_eq_decide, hcount u (List.mem_dedup.mp hu), Option.some_inj]
  omega

theorem mem_settled_iff (h : g.Underway done (v :: queue) w) {u : α} :
    u ∈ (Waiting.settle (g.successors v) w).1
      ↔ g.Arc v u ∧ g.unsettled (done ++ [v]) u = 0 := by
  rw [h.settled_eq, List.mem_filter, List.mem_dedup, mem_successors, decide_eq_true_iff]

/-- An id that joins now was still waiting before. -/
theorem unsettled_ne_zero_of_arc (h : g.Underway done (v :: queue) w) {u : α} (ha : g.Arc v u) :
    g.unsettled done u ≠ 0 := fun h0 ↦
  h.notMem_done (unsettled_eq_zero.mp h0 v ha)

/-- **One step** keeps the invariant. -/
theorem step (h : g.Underway done (v :: queue) w) :
    g.Underway (done ++ [v]) (queue ++ (Waiting.settle (g.successors v) w).1)
      (Waiting.settle (g.successors v) w).2 := by
  set new := (Waiting.settle (g.successors v) w).1 with hnew
  have hconcat := unsettled_concat (g := g) h.notMem_done
  have hsplit : done ++ [v] ++ (queue ++ new) = done ++ v :: queue ++ new := by simp
  have hfresh : ∀ u ∈ new, u ∉ done ++ v :: queue := fun u hu hold ↦
    h.unsettled_ne_zero_of_arc (h.mem_settled_iff.mp hu).1 ((h.mem_iff u).mp hold).2
  refine ⟨?_, fun u ↦ ?_, fun u hu ↦ ?_, ?_⟩
  · rw [hsplit, List.nodup_append]
    refine ⟨h.nodup, ?_, fun a ha b hb hab ↦ hfresh b hb (hab ▸ ha)⟩
    rw [hnew, h.settled_eq]
    exact (List.nodup_dedup _).filter _
  · -- waiting for nothing now means to have waited for nothing before, or for `v` alone
    rw [hsplit, List.mem_append, h.mem_iff, h.mem_settled_iff]
    constructor
    · rintro (⟨he, h0⟩ | ⟨ha, h0⟩)
      · exact ⟨he, by have := hconcat u; omega⟩
      · exact ⟨entered_of_arc ha, h0⟩
    · rintro ⟨he, h0⟩
      by_cases ha : g.Arc v u
      · exact Or.inr ⟨ha, h0⟩
      · have hzero : (g.successors v).count u = 0 :=
          List.count_eq_zero.mpr fun hu ↦ ha (mem_successors.mp hu)
        exact Or.inl ⟨he, by have := hconcat u; omega⟩
  · rw [Waiting.count?_settle, h.count_eq u hu, Option.map_some, Option.some_inj]
    have := hconcat u
    omega
  · rw [hsplit]
    refine h.precedes.append fun u hu ↦ ⟨hfresh u hu, fun t ht ↦ ?_⟩
    have hdone := unsettled_eq_zero.mp (h.mem_settled_iff.mp hu).2 t ht
    rw [List.append_cons]
    exact List.mem_append_left _ hdone

/-- **A whole run** keeps the invariant, up to the empty queue. -/
theorem exists_run (h : g.Underway done queue w) :
    ∃ w', g.Underway (done ++ g.run queue w) [] w' := by
  fun_induction run g queue w generalizing done
  case case1 w => exact ⟨w, by rwa [List.append_nil]⟩
  case case2 v queue w _ ih =>
    obtain ⟨w', hw'⟩ := ih h.step
    exact ⟨w', by rwa [List.append_cons]⟩

end Underway

/-! ## The start -/

theorem nodup_eraseDups (l : List α) : l.eraseDups.Nodup := by
  induction hn : l.length using Nat.strong_induction_on generalizing l with
  | _ n ih =>
    cases l with
    | nil => simp
    | cons a l =>
      have hlen : (l.filter fun b ↦ !b == a).length < n := by
        rw [← hn, List.length_cons]
        exact Nat.lt_succ_of_le (List.length_filter_le _ l)
      rw [List.eraseDups_cons, List.nodup_cons]
      exact ⟨by simp [List.mem_eraseDups], ih _ hlen _ rfl⟩

theorem nodup_entered (g : Digraph α) : g.entered.Nodup := nodup_eraseDups _

theorem sources_eq (g : Digraph α) : g.sources = g.entered.filter fun v ↦ g.inDegree v = 0 := by
  rw [sources, waiting, List.filter_map, List.map_map]
  exact List.map_id _

theorem count?_waiting {g : Digraph α} {v : α} (hv : g.Entered v) :
    Waiting.count? g.waiting v = some (g.inDegree v) := by
  have hcount : ∀ l : List α, v ∈ l →
      Waiting.count? (l.map fun u ↦ (u, g.inDegree u)) v = some (g.inDegree v) := by
    intro l
    induction l with
    | nil => intro h; exact absurd h List.not_mem_nil
    | cons u l ih =>
      intro h
      rw [List.map_cons, Waiting.count?_cons]
      by_cases huv : u = v
      · rw [if_pos huv, huv]
      · rw [if_neg huv, ih ((List.mem_cons.mp h).resolve_left (Ne.symm huv))]
  exact hcount _ (mem_entered.mpr hv)

theorem underway_sources (g : Digraph α) : g.Underway [] g.sources g.waiting where
  nodup := by
    rw [List.nil_append, sources_eq]
    exact g.nodup_entered.filter _
  mem_iff v := by
    rw [List.nil_append, sources_eq, List.mem_filter, mem_entered, decide_eq_true_iff,
      unsettled_nil]
  count_eq v hv := by rw [count?_waiting hv, unsettled_nil]
  precedes u v ha hv := by
    rw [List.nil_append, sources_eq, List.mem_filter, decide_eq_true_iff, ← unsettled_nil,
      unsettled_eq_zero] at hv
    exact absurd (hv.2 u ha) List.not_mem_nil

/-- **The end of the run** that gives the order. -/
theorem exists_underway_order (g : Digraph α) : ∃ w, g.Underway g.order [] w :=
  g.underway_sources.exists_run

/-! ## The order -/

theorem nodup_order (g : Digraph α) : g.order.Nodup := by
  obtain ⟨w, h⟩ := g.exists_underway_order
  simpa using h.nodup

theorem mem_order_iff {g : Digraph α} {v : α} :
    v ∈ g.order ↔ g.Entered v ∧ ∀ u, g.Arc u v → u ∈ g.order := by
  obtain ⟨w, h⟩ := g.exists_underway_order
  rw [← unsettled_eq_zero, ← h.mem_iff v, List.append_nil]

theorem precedes_order (g : Digraph α) : g.Precedes g.order := by
  obtain ⟨w, h⟩ := g.exists_underway_order
  simpa using h.precedes

/-! ## What holds an id back -/

/-- An id is held back by those from which it is reached and that lie on a cycle or are never
entered. -/
def HeldBack (g : Digraph α) (v : α) : Prop :=
  ∃ u, g.Reaches u v ∧ (g.OnCycle u ∨ ¬g.Entered u)

omit [DecidableEq α] in
theorem not_heldBack_iff {g : Digraph α} {v : α} :
    ¬g.HeldBack v ↔ ∀ u, g.Reaches u v → ¬g.OnCycle u ∧ g.Entered u := by
  simp only [HeldBack, not_exists, not_and, not_or, not_not]

omit [DecidableEq α] in
theorem Reaches.tail {g : Digraph α} {t u v : α} (htu : g.Reaches t u) (ha : g.Arc u v) :
    g.Reaches t v := by
  rcases htu with rfl | htu
  · exact Or.inr (.single ha)
  · exact Or.inr (htu.tail ha)

omit [DecidableEq α] in
theorem HeldBack.of_arc {g : Digraph α} {u v : α} (hu : g.HeldBack u) (ha : g.Arc u v) :
    g.HeldBack v := by
  obtain ⟨t, htu, ht⟩ := hu
  exact ⟨t, htu.tail ha, ht⟩

omit [DecidableEq α] in
theorem entered_of_not_heldBack {g : Digraph α} {v : α} (h : ¬g.HeldBack v) : g.Entered v :=
  (not_heldBack_iff.mp h v (Or.inl rfl)).2

omit [DecidableEq α] in
theorem not_onCycle_of_not_heldBack {g : Digraph α} {v : α} (h : ¬g.HeldBack v) :
    ¬g.OnCycle v :=
  (not_heldBack_iff.mp h v (Or.inl rfl)).1

/-- Along arcs that hold nothing back one cannot go back forever, since only finitely many ids are
entered. -/
private theorem wellFounded_leads (g : Digraph α) :
    WellFounded fun u v : {v // ¬g.HeldBack v} ↦ g.Leads u.1 v.1 := by
  have hfinite : {v | ¬g.HeldBack v}.Finite :=
    (List.finite_toSet g.entered).subset fun v hv ↦ mem_entered.mpr (entered_of_not_heldBack hv)
  have : Finite {v // ¬g.HeldBack v} := hfinite.to_subtype
  have : IsTrans {v // ¬g.HeldBack v} fun u v ↦ g.Leads u.1 v.1 := ⟨fun _ _ _ ↦ .trans⟩
  have : Std.Irrefl fun u v : {v // ¬g.HeldBack v} ↦ g.Leads u.1 v.1 :=
    ⟨fun v ↦ not_onCycle_of_not_heldBack v.2⟩
  exact Finite.wellFounded_of_trans_of_irrefl _

/-- **Membership.** The order holds exactly the ids that nothing holds back. -/
theorem mem_order_iff_not_heldBack {g : Digraph α} {v : α} : v ∈ g.order ↔ ¬g.HeldBack v := by
  constructor
  · rintro hv ⟨u, huv, hu⟩
    have hmem : u ∈ g.order := by
      rcases huv with rfl | huv
      · exact hv
      · exact g.precedes_order.mem_of_leads huv hv
    rcases hu with hcycle | hentered
    · exact absurd (g.precedes_order.of_leads hcycle hmem) (lt_irrefl _)
    · exact hentered (mem_order_iff.mp hmem).1
  · intro hv
    -- the sources of the arcs into an id that is not held back are not held back either
    suffices h : ∀ u : {v // ¬g.HeldBack v}, u.1 ∈ g.order from h ⟨v, hv⟩
    intro u
    induction u using g.wellFounded_leads.induction with
    | _ u ih =>
      refine mem_order_iff.mpr ⟨entered_of_not_heldBack u.2, fun t ht ↦ ?_⟩
      exact ih ⟨t, fun h ↦ u.2 (h.of_arc ht)⟩ (.single ht)

/-! ## Parts of the order

Whoever leaves ids out of the order keeps the rest in its order, so paths still go forward. -/

theorem pairwise_order (g : Digraph α) : g.order.Pairwise fun u v ↦ ¬g.Leads v u := by
  rw [List.pairwise_iff_getElem]
  intro i j hi hj hij hleads
  have hlt := g.precedes_order.of_leads hleads (List.getElem_mem hi)
  rw [g.nodup_order.idxOf_getElem, g.nodup_order.idxOf_getElem] at hlt
  omega

theorem lt_of_leads {g : Digraph α} {l : List α} (hl : l.Sublist g.order) {i j : Nat}
    (hi : i < l.length) (hj : j < l.length) (h : g.Leads l[i] l[j]) : i < j := by
  rcases Nat.lt_trichotomy i j with hij | rfl | hji
  · exact hij
  · have hmem : l[i] ∈ g.order := hl.subset (List.getElem_mem hi)
    exact absurd h (not_onCycle_of_not_heldBack (mem_order_iff_not_heldBack.mp hmem))
  · exact absurd h (List.pairwise_iff_getElem.mp (g.pairwise_order.sublist hl) j i hj hi hji)

end Digraph

end AgentFlow
