import AgentFlow.Proofs.Digraph.Order

/-!
# Tables of arcs

The traversals keep what they know of ids in tables that are filled arc by arc. A table lists its
keys in the order in which they were entered; a key that is entered again keeps its place and gets
the new value, and looking up a key that was never entered gives nothing.

A table that is filled from a graph is known in full: its keys are a list without repetitions and
its values those of a function on ids (`Table.ofKeys`). Entering a key keeps that form
(`Table.put_ofKeys`), so what an arc does to a table is an equation between tables and not one
statement for each key.
-/

namespace AgentFlow

/-- Keys with values, in the order in which the keys were entered. -/
abbrev Table (α β : Type) := List (α × β)

variable {α β : Type} [DecidableEq α]

namespace Table

/-- The value of a key, if it was entered. -/
def get? (t : Table α β) (k : α) : Option β := List.lookup k t

/-- Enters a key with a value, in its old place if it has one. -/
def put : Table α β → α → β → Table α β
  | [], k, x => [(k, x)]
  | (k', x') :: t, k, x => if k' = k then (k, x) :: t else (k', x') :: put t k x

theorem get?_cons (k' : α) (x : β) (t : Table α β) (k : α) :
    get? ((k', x) :: t) k = if k = k' then some x else get? t k := by
  by_cases h : k = k'
  · rw [get?, List.lookup_cons, beq_iff_eq.mpr h, if_pos h]
  · rw [get?, List.lookup_cons, beq_eq_false_iff_ne.mpr h, if_neg h, get?]

theorem get?_put (t : Table α β) (k : α) (x : β) (k' : α) :
    (t.put k x).get? k' = if k' = k then some x else t.get? k' := by
  induction t with
  | nil => exact get?_cons k x [] k'
  | cons p t ih =>
    obtain ⟨l, y⟩ := p
    rw [put]
    by_cases hl : l = k
    · subst hl
      rw [if_pos rfl, get?_cons, get?_cons]
      by_cases h : k' = l
      · rw [if_pos h, if_pos h]
      · rw [if_neg h, if_neg h, if_neg h]
    · rw [if_neg hl, get?_cons, get?_cons, ih]
      by_cases h : k' = l
      · rw [if_pos h, if_pos h, if_neg fun h' ↦ hl (h.symm.trans h')]
      · rw [if_neg h, if_neg h]

theorem get?_eq_none_iff {t : Table α β} {k : α} : t.get? k = none ↔ k ∉ t.map Prod.fst := by
  induction t with
  | nil => simp [get?]
  | cons p t ih =>
    obtain ⟨l, y⟩ := p
    rw [get?_cons, List.map_cons, List.mem_cons, not_or, ← ih]
    by_cases h : k = l
    · simp [h]
    · simp [h]

theorem isSome_get?_iff {t : Table α β} {k : α} : (t.get? k).isSome ↔ k ∈ t.map Prod.fst := by
  rw [Option.isSome_iff_ne_none, ne_eq, get?_eq_none_iff, not_not]

theorem put_of_notMem {t : Table α β} {k : α} {x : β} (h : k ∉ t.map Prod.fst) :
    t.put k x = t ++ [(k, x)] := by
  induction t with
  | nil => rfl
  | cons p t ih =>
    obtain ⟨l, y⟩ := p
    rw [List.map_cons, List.mem_cons, not_or] at h
    rw [put, if_neg (Ne.symm h.1), ih h.2, List.cons_append]

/-! ## Tables of a function -/

omit [DecidableEq α] in
/-- The table of a function on some keys. -/
def ofKeys (ks : List α) (f : α → β) : Table α β := ks.map fun k ↦ (k, f k)

theorem get?_ofKeys (ks : List α) (f : α → β) (k : α) :
    (ofKeys ks f).get? k = if k ∈ ks then some (f k) else none := by
  induction ks with
  | nil => rfl
  | cons l ks ih =>
    rw [ofKeys, List.map_cons, get?_cons]
    by_cases h : k = l
    · rw [if_pos h, if_pos (List.mem_cons.mpr (.inl h)), h]
    · rw [if_neg h, ← ofKeys, ih]
      simp only [List.mem_cons, h, false_or]

omit [DecidableEq α] in
theorem ofKeys_congr {ks : List α} {f f' : α → β} (h : ∀ k ∈ ks, f k = f' k) :
    ofKeys ks f = ofKeys ks f' :=
  List.map_congr_left fun k hk ↦ by rw [h k hk]

/-- The keys after one more is entered. -/
def enter (ks : List α) (k : α) : List α := if k ∈ ks then ks else ks ++ [k]

/-- What is entered in turn is what remains without repetitions. -/
theorem foldl_enter (l : List α) : l.foldl enter [] = l.eraseDups := by
  induction l using List.reverseRecOn with
  | nil => rfl
  | append_singleton l a ih =>
    rw [List.foldl_concat, ih, List.eraseDups_append, enter]
    by_cases ha : a ∈ l
    · simp [List.mem_eraseDups, ha, List.removeAll]
    · simp [List.mem_eraseDups, ha, List.removeAll, List.eraseDups_cons]

/-- **Entering a key** in the table of a function. -/
theorem put_ofKeys {ks : List α} (h : ks.Nodup) (f : α → β) (k : α) (x : β) :
    (ofKeys ks f).put k x = ofKeys (enter ks k) (Function.update f k x) := by
  have hother : ∀ l : List α, k ∉ l → ofKeys l (Function.update f k x) = ofKeys l f := fun l hl ↦
    ofKeys_congr fun u hu ↦ Function.update_of_ne (ne_of_mem_of_not_mem hu hl) x f
  induction ks with
  | nil => simp [ofKeys, put, enter]
  | cons l ks ih =>
    obtain ⟨hl, hks⟩ := List.nodup_cons.mp h
    rw [ofKeys, List.map_cons, put]
    by_cases hlk : l = k
    · subst hlk
      rw [if_pos rfl, enter, if_pos List.mem_cons_self, ofKeys, List.map_cons,
        Function.update_self, ← ofKeys, ← ofKeys, hother ks hl]
    · have henter : enter (l :: ks) k = l :: enter ks k := by
        by_cases hk : k ∈ ks
        · rw [enter, enter, if_pos hk, if_pos (List.mem_cons_of_mem l hk)]
        · rw [enter, enter, if_neg hk, if_neg (by simp [hk, Ne.symm hlk]), List.cons_append]
      rw [if_neg hlk, ← ofKeys, ih hks, henter, ofKeys, ofKeys, List.map_cons,
        Function.update_of_ne hlk]

/-- Enters keys in turn, all with the same value. -/
def ofFill (ks : List α) (x : β) : Table α β := ks.foldl (fun t k ↦ t.put k x) []

theorem ofFill_eq (ks : List α) (x : β) : ofFill ks x = ofKeys ks.eraseDups fun _ ↦ x := by
  induction ks using List.reverseRecOn with
  | nil => rfl
  | append_singleton ks k ih =>
    rw [ofFill, List.foldl_concat, ← ofFill, ih, put_ofKeys (Digraph.nodup_eraseDups ks),
      ← foldl_enter, ← foldl_enter, List.foldl_concat, Function.update_eq_self]

end Table

/-! ## Tables of a graph -/

namespace Digraph

/-- The arcs into ids, counted one by one: a vertex starts with zero, and an arc counts its target,
which is entered if need be. -/
def tally (g : Digraph α) : Table α Int :=
  g.arcs.foldl (fun t a ↦ t.put a.2 ((t.get? a.2).getD 0 + 1)) (.ofFill g.vertices 0)

/-- **The counts** are those of all arcs, for the ids that are entered. -/
theorem tally_eq (g : Digraph α) : g.tally = .ofKeys g.entered fun v ↦ (g.inDegree v : Int) := by
  obtain ⟨vs, arcs⟩ := g
  simp only [tally, entered, inDegree]
  induction arcs using List.reverseRecOn with
  | nil => simp [Table.ofFill_eq]
  | append_singleton arcs a ih =>
    set ks := (vs ++ arcs.map Prod.snd).eraseDups with hks
    have henter : Table.enter ks a.2 = (vs ++ (arcs ++ [a]).map Prod.snd).eraseDups := by
      rw [hks, ← Table.foldl_enter, ← Table.foldl_enter, List.map_append, ← List.append_assoc,
        List.map_singleton, List.foldl_concat]
    have hold : ((Table.ofKeys ks fun v ↦ (arcs.countP (·.2 = v) : Int)).get? a.2).getD 0
        = arcs.countP (·.2 = a.2) := by
      rw [Table.get?_ofKeys]
      split
      · rfl
      · -- a target that was not entered was not counted
        rename_i ha
        rw [hks, List.mem_eraseDups, List.mem_append, not_or] at ha
        have hzero : arcs.countP (·.2 = a.2) = 0 := List.countP_eq_zero.mpr fun b hb hba ↦
          ha.2 (of_decide_eq_true hba ▸ List.mem_map_of_mem hb)
        rw [hzero, Option.getD_none, Int.natCast_zero]
    rw [List.foldl_concat, ih, hold, Table.put_ofKeys (nodup_eraseDups _), henter]
    congr 1
    funext v
    rw [List.countP_append, List.countP_singleton]
    by_cases hv : v = a.2
    · simp [hv]
    · simp [Function.update_of_ne hv, Ne.symm hv]

/-- The targets of arcs by their sources, collected one by one in a table that may have keys
already. -/
def adjacency (g : Digraph α) (t : Table α (List α)) : Table α (List α) :=
  g.arcs.foldl (fun t a ↦ t.put a.1 ((t.get? a.1).getD [] ++ [a.2])) t

theorem getD_adjacency (g : Digraph α) (t : Table α (List α)) (v : α) :
    ((g.adjacency t).get? v).getD [] = (t.get? v).getD [] ++ g.successors v := by
  obtain ⟨vs, arcs⟩ := g
  simp only [adjacency, successors]
  induction arcs using List.reverseRecOn with
  | nil => simp
  | append_singleton arcs a ih =>
    rw [List.foldl_concat, Table.get?_put, List.filter_append, List.map_append, ← List.append_assoc,
      ← ih]
    by_cases hv : v = a.1
    · simp [hv]
    · simp [hv, Ne.symm hv]

/-- **The neighbours**, when no key was there before. -/
theorem getD_adjacency_nil (g : Digraph α) (v : α) :
    ((g.adjacency []).get? v).getD [] = g.successors v := by
  rw [getD_adjacency, Table.get?, List.lookup_nil, Option.getD_none, List.nil_append]

/-- **The neighbours**, when the vertices were there before. -/
theorem getD_adjacency_ofFill (g : Digraph α) (v : α) :
    ((g.adjacency (.ofFill g.vertices [])).get? v).getD [] = g.successors v := by
  rw [getD_adjacency, Table.ofFill_eq, Table.get?_ofKeys]
  split
  · rfl
  · rfl

/-- Adds an arc to the table of its source, which is looked up, if the source has a key and the
target is a vertex. -/
def addChild? (vs : List α) (t : Table α (List α)) (a : α × α) : Option (Table α (List α)) :=
  if (t.get? a.1).isSome ∧ a.2 ∈ vs then (t.get? a.1).map fun us ↦ t.put a.1 (us ++ [a.2])
  else some t

theorem addChild?_ofKeys (vs : List α) (f : α → List α) (a : α × α) :
    addChild? vs (.ofKeys vs.eraseDups f) a =
      some (.ofKeys vs.eraseDups fun v ↦ if v = a.1 ∧ a.2 ∈ vs then f v ++ [a.2] else f v) := by
  have hget : (Table.ofKeys vs.eraseDups f).get? a.1 = if a.1 ∈ vs then some (f a.1) else none := by
    simp only [Table.get?_ofKeys, List.mem_eraseDups]
  rw [addChild?, hget]
  by_cases hs : a.1 ∈ vs
  · by_cases ht : a.2 ∈ vs
    · rw [if_pos hs, if_pos ⟨rfl, ht⟩, Option.map_some, Table.put_ofKeys (nodup_eraseDups vs),
        Table.enter, if_pos (List.mem_eraseDups.mpr hs)]
      congr 2
      funext v
      by_cases hv : v = a.1
      · simp [hv, ht]
      · simp [hv]
    · simp [hs, ht]
  · rw [if_neg hs, if_neg (by simp)]
    -- the source is no key, so no value changes
    refine congrArg some (Table.ofKeys_congr fun v hv ↦ ?_)
    have hne : v ≠ a.1 := ne_of_mem_of_not_mem (List.mem_eraseDups.mp hv) hs
    rw [if_neg fun h ↦ hne h.1]

/-- The arcs between vertices, collected by their sources. -/
def children? (g : Digraph α) : Option (Table α (List α)) :=
  g.arcs.foldlM (addChild? g.vertices) (.ofFill g.vertices [])

/-- The targets of the arcs out of an id that are vertices. -/
def childrenOf (g : Digraph α) (v : α) : List α := (g.successors v).filter (· ∈ g.vertices)

/-- **The children** of all vertices; no lookup fails. -/
theorem children?_eq (g : Digraph α) :
    g.children? = some (.ofKeys g.vertices.eraseDups g.childrenOf) := by
  obtain ⟨vs, arcs⟩ := g
  rw [children?]
  induction arcs using List.reverseRecOn with
  | nil => exact congrArg some (Table.ofFill_eq vs [])
  | append_singleton arcs a ih =>
    rw [List.foldlM_append, ih, Option.bind_eq_bind, Option.bind_some, List.foldlM_cons,
      addChild?_ofKeys]
    refine congrArg some (Table.ofKeys_congr fun v _ ↦ ?_)
    simp only [childrenOf, successors, List.filter_append, List.map_append]
    by_cases hv : v = a.1
    · by_cases ht : a.2 ∈ vs
      · simp [hv, ht]
      · simp [hv, ht]
    · simp [hv, Ne.symm hv]

end Digraph

end AgentFlow
