import AgentFlow.Proofs.Digraph.Renaming
import AgentFlow.Proofs.Schedule.Compile

/-!
# What compiling does not see

Compiling asks of an id only which other ids it equals, and of the looks of a canvas nothing at all.
A canvas is repainted when its ids are renamed and when positions, descriptions, icons, statuses,
errors shown and agent configurations of nodes, or ids, kinds, motions and labels of edges, are
replaced by any others (`Graph.Repainted`). If ids that occur keep different names, the repainted
canvas compiles to the same schedule (`Graph.compile_repainted`).

The compiler's parts are followed one by one. The order is renamed (`Digraph.order_rename`), an id
and its new name stand for nodes that differ in their looks only, these are eligible together and
make the same step, and an edge joins the same places as before.
-/

namespace AgentFlow

/-! ## Repainting -/

/-- A node with its id renamed, at any place and with any looks. -/
structure Node.Repainted (f : Text → Text) (n m : Node) : Prop where
  /-- The id is renamed. -/
  id : m.id = f n.id
  /-- The kind stays. -/
  kind : m.kind = n.kind
  /-- Of the configuration, only what is shown and what is kept for the agent may change. -/
  data : m.data = { n.data with
    description := m.data.description
    icon := m.data.icon
    status := m.data.status
    validationErrors := m.data.validationErrors
    agentConfig := m.data.agentConfig }

/-- An edge with both ends renamed, under any id and with any looks. -/
structure Edge.Repainted (f : Text → Text) (e d : Edge) : Prop where
  /-- The source is renamed. -/
  source : d.source = f e.source
  /-- The target is renamed. -/
  target : d.target = f e.target
  /-- The condition that is attached stays. -/
  condition : d.data.bind EdgeData.condition = e.data.bind EdgeData.condition

/-- A canvas with all of its nodes and edges repainted, in order. -/
structure Graph.Repainted (f : Text → Text) (g g' : Graph) : Prop where
  /-- The nodes. -/
  nodes : List.Forall₂ (Node.Repainted f) g.nodes g'.nodes
  /-- The edges. -/
  edges : List.Forall₂ (Edge.Repainted f) g.edges g'.edges

variable {f : Text → Text}

namespace Node.Repainted

variable {n m : Node}

theorem canisterId (h : n.Repainted f m) : m.canisterId = n.canisterId := by
  rw [Node.canisterId, h.data]
  rfl

theorem step (h : n.Repainted f m) : m.step = n.step := by
  rw [Node.step, Node.step, h.canisterId, h.data]

theorem isEligible (h : n.Repainted f m) (r : Restriction) : m.isEligible r = n.isEligible r := by
  have hcanister : m.canister? = n.canister? :=
    congrArg (Option.filter fun c ↦ !isBlankText c) h.canisterId
  rw [Node.isEligible, Node.isEligible, rejection?, rejection?, h.kind, hcanister]

end Node.Repainted

theorem Edge.Repainted.condition_eq {e d : Edge} (h : e.Repainted f d) :
    d.condition = e.condition := by
  rw [Edge.condition, h.condition, Edge.condition]

/-! ## Places of renamed ids -/

theorem idxOf?_map_of_injOn {l : List Text} {v : Text} (hf : Set.InjOn f {u | u = v ∨ u ∈ l}) :
    (l.map f).idxOf? (f v) = l.idxOf? v := by
  induction l with
  | nil => rfl
  | cons a l ih =>
    have hrest : Set.InjOn f {u | u = v ∨ u ∈ l} :=
      hf.mono fun u hu ↦ hu.imp_right (List.mem_cons_of_mem a)
    have hbeq : (f a == f v) = (a == v) := by
      rw [Bool.eq_iff_iff, beq_iff_eq, beq_iff_eq]
      exact ⟨fun h ↦ hf (.inr List.mem_cons_self) (.inl rfl) h, congrArg f⟩
    rw [List.map_cons, List.idxOf?_cons, List.idxOf?_cons, hbeq, ih hrest]

/-- The first elements with related properties are related. -/
private theorem rel_find? {α β : Type} {R : α → β → Prop} {p : α → Bool} {q : β → Bool}
    {l : List α} {m : List β} (h : List.Forall₂ (fun a b ↦ R a b ∧ p a = q b) l m) :
    Option.Rel R (l.find? p) (m.find? q) := by
  induction h with
  | nil => exact .none
  | @cons a b _ _ hab _ ih =>
    rw [List.find?_cons, List.find?_cons, ← hab.2]
    cases p a with
    | false => exact ih
    | true => exact .some hab.1

private theorem map_eq_map_of_rel {α β γ : Type} {R : α → β → Prop} {p : α → γ} {q : β → γ}
    {l : List α} {m : List β} (h : List.Forall₂ R l m) (heq : ∀ a b, R a b → q b = p a) :
    m.map q = l.map p := by
  induction h with
  | nil => rfl
  | cons hab _ ih => rw [List.map_cons, List.map_cons, heq _ _ hab, ih]

namespace Graph

variable {r : Restriction} {g g' : Graph}

namespace Repainted

/-! ## The order -/

theorem digraph_eq (h : g.Repainted f g') : g'.digraph = g.digraph.rename f := by
  have hids : g'.nodes.map Node.id = (g.nodes.map Node.id).map f := by
    rw [List.map_map]
    exact map_eq_map_of_rel h.nodes fun _ _ hn ↦ hn.id
  have harcs : g'.edges.map Edge.arc = (g.edges.map Edge.arc).map (Prod.map f f) := by
    rw [List.map_map]
    exact map_eq_map_of_rel h.edges fun _ _ he ↦ Prod.ext he.source he.target
  exact congrArg₂ Digraph.mk hids harcs

/-- An id and its new name stand for nodes that differ in their looks. -/
theorem lastNode? (h : g.Repainted f g') (hf : Set.InjOn f {v | v ∈ g.digraph.ids}) {v : Text}
    (hv : v ∈ g.digraph.ids) :
    Option.Rel (Node.Repainted f) (AgentFlow.lastNode? g.nodes v)
      (AgentFlow.lastNode? g'.nodes (f v)) := by
  have hids : ∀ n ∈ g.nodes, n.id ∈ g.digraph.ids := fun n hn ↦
    List.mem_append_left _ (List.mem_append_left _ (List.mem_map_of_mem hn))
  have hnodes := (List.forall₂_and_left _ _).mpr ⟨hids, h.nodes⟩
  rw [AgentFlow.lastNode?, AgentFlow.lastNode?, List.findRev?_eq_find?_reverse,
    List.findRev?_eq_find?_reverse]
  -- among ids that occur, only that of `v` is renamed like `v`
  refine rel_find? (List.rel_reverse (hnodes.imp fun n m hn ↦ ⟨hn.2, ?_⟩))
  rw [hn.2.id, decide_eq_decide]
  exact ⟨congrArg f, fun heq ↦ hf hn.1 hv heq⟩

theorem order (h : g.Repainted f g') (hf : Set.InjOn f {v | v ∈ g.digraph.ids}) :
    List.Forall₂ (Node.Repainted f) g.order g'.order := by
  rw [Graph.order, Graph.order, h.digraph_eq, Digraph.order_rename hf, List.filterMap_map]
  refine List.rel_filterMap (R := fun u v ↦ u ∈ g.digraph.ids ∧ u = v) ?_ ?_
  · rintro u _ ⟨hu, rfl⟩
    exact h.lastNode? hf hu
  · exact (List.forall₂_and_left _ _).mpr
      ⟨fun v ↦ Digraph.mem_ids_of_mem_order, List.forall₂_refl _⟩

/-! ## Steps and connections -/

theorem compiledNodes (h : g.Repainted f g') (hf : Set.InjOn f {v | v ∈ g.digraph.ids}) :
    List.Forall₂ (Node.Repainted f) (g.compiledNodes r) (g'.compiledNodes r) := by
  refine List.rel_filter (fun n m hn ↦ ?_) (h.order hf)
  change n.isEligible r ↔ m.isEligible r
  rw [hn.isEligible r]

theorem steps (h : g.Repainted f g') (hf : Set.InjOn f {v | v ∈ g.digraph.ids}) :
    g'.steps r = g.steps r :=
  map_eq_map_of_rel (h.compiledNodes hf) fun _ _ hn ↦ hn.step

theorem compiledIds (h : g.Repainted f g') (hf : Set.InjOn f {v | v ∈ g.digraph.ids}) :
    g'.compiledIds r = (g.compiledIds r).map f := by
  rw [Graph.compiledIds, Graph.compiledIds, List.map_map]
  exact map_eq_map_of_rel (h.compiledNodes hf) fun _ _ hn ↦ hn.id

/-- An edge joins the same places as before. -/
theorem connection? (hf : Set.InjOn f {v | v ∈ g.digraph.ids}) {e d : Edge} (he : e ∈ g.edges)
    (hed : e.Repainted f d) :
    d.connection? ((g.compiledIds r).map f) = e.connection? (g.compiledIds r) := by
  obtain ⟨hsource, htarget⟩ := Digraph.mem_ids_of_arc (arc_iff.mpr ⟨e, he, rfl, rfl⟩)
  have hids : ∀ u ∈ g.compiledIds r, u ∈ g.digraph.ids := fun u hu ↦
    Digraph.mem_ids_of_mem_order (compiledIds_sublist.subset hu)
  have hplace : ∀ v ∈ g.digraph.ids,
      ((g.compiledIds r).map f).idxOf? (f v) = (g.compiledIds r).idxOf? v := by
    intro v hv
    refine idxOf?_map_of_injOn (hf.mono fun u hu ↦ ?_)
    obtain rfl | hu := hu
    · exact hv
    · exact hids u hu
  rw [Edge.connection?, Edge.connection?, hed.source, hed.target, hplace _ hsource,
    hplace _ htarget, hed.condition_eq]

theorem connections (h : g.Repainted f g') (hf : Set.InjOn f {v | v ∈ g.digraph.ids}) :
    g'.connections r = g.connections r := by
  change g'.edges.filterMap (Edge.connection? (g'.compiledIds r))
    = g.edges.filterMap (Edge.connection? (g.compiledIds r))
  rw [h.compiledIds hf, eq_comm, ← List.forall₂_eq_eq_eq]
  refine List.rel_filterMap (R := fun e d ↦ e ∈ g.edges ∧ e.Repainted f d) ?_ ?_
  · rintro e d ⟨he, hed⟩
    rw [connection? hf he hed]
    cases e.connection? (g.compiledIds r) with
    | none => exact .none
    | some c => exact .some rfl
  · exact (List.forall₂_and_left _ _).mpr ⟨fun e he ↦ he, h.edges⟩

end Repainted

/-- **Compiling does not see ids and looks.** A canvas that is repainted, with its ids renamed so
that those that occur keep different names, compiles to the same schedule under every restriction.
-/
theorem compile_repainted (h : g.Repainted f g') (hf : Set.InjOn f {v | v ∈ g.digraph.ids})
    (r : Restriction) : g'.compile r = g.compile r :=
  congrArg₂ Schedule.mk (h.steps hf) (h.connections hf)

/-- Two nodes share the id `a`, and `b` leads to a stranger that leads to itself. -/
def crowded : Graph where
  nodes := [.plain "a" "x", .plain "b" "y", .plain "a" "z"]
  edges := [.plain "e" "a" "b", .plain "f" "b" "stranger", .plain "g" "stranger" "stranger"]

/-- The same canvas with `a` and `b` exchanged and with other looks. -/
def crowdedAnew : Graph where
  nodes :=
    [{ Node.plain "b" "x" with position := .ofInts 300 100 },
     { id := "a", kind := .agent, position := .origin
       data := { NodeData.empty with canisterId := some "y", icon := some "!", status := .error } },
     .plain "b" "z"]
  edges :=
    [⟨"e", "b", "a", .parallel, true, some ⟨none, some "next"⟩⟩, .plain "h" "a" "c",
     .plain "g" "c" "c"]

/-- Exchanges `a` and `b` and takes every other id for `c`. -/
def exchange (v : Text) : Text := if v = "a" then "b" else if v = "b" then "a" else "c"

theorem compile_repainted_crowded :
    crowded.Repainted exchange crowdedAnew ∧ Set.InjOn exchange {v | v ∈ crowded.digraph.ids} ∧
      (crowded.compile .none).steps.length = 2 ∧ (crowded.compile .none).connections.length = 1 ∧
      crowdedAnew.compile .none = crowded.compile .none := by
  have hrepainted : crowded.Repainted exchange crowdedAnew :=
    ⟨.cons ⟨rfl, rfl, rfl⟩ (.cons ⟨rfl, rfl, rfl⟩ (.cons ⟨rfl, rfl, rfl⟩ .nil)),
      .cons ⟨rfl, rfl, rfl⟩ (.cons ⟨rfl, rfl, rfl⟩ (.cons ⟨rfl, rfl, rfl⟩ .nil))⟩
  have hinj : ∀ u ∈ crowded.digraph.ids, ∀ v ∈ crowded.digraph.ids,
      exchange u = exchange v → u = v := by decide
  exact ⟨hrepainted, fun u hu v hv ↦ hinj u hu v hv, by decide +kernel, by decide +kernel,
    compile_repainted hrepainted (fun u hu v hv ↦ hinj u hu v hv) .none⟩

end Graph

end AgentFlow
