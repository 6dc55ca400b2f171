import AgentFlow.Proofs.Canvas.Canister
import AgentFlow.Proofs.Schedule.Compile
import Mathlib.Data.List.NodupEquivFin

/-!
# Schedules under a restriction

A restriction is asked about one text of a node, its canister, and only after the order of the canvas
is fixed. So the nodes that are compiled under a restriction are some of those that are compiled
without one, and they come in the same order (`compiledNodes_eq_filter`).

What a restriction changes everywhere are the numbers: a step moves up by as many places as steps in
front of it are dropped, and connections name steps by their places. The places that are left are
those of a strictly increasing map (`exists_places_filter`), and both lists of ids, the restricted
one and the full one, agree along it. This is all that connections need, so a restricted schedule is
the part of the full one that is induced by the steps that stay (`exists_restricted_places`).
-/

namespace AgentFlow

/-! ## What a restriction admits -/

theorem Restriction.admits_iff {r : Restriction} {canister : Text} :
    r.Admits canister ↔
      (∀ excluded, r.excluded = some excluded → excluded ≠ "" → canister ≠ excluded) ∧
        ∀ allowed, r.allowed = some allowed → allowed ≠ [] → canister ∈ allowed := by
  refine and_congr ?_ ?_
  · rw [bars]
    cases r.excluded with
    | none => simp
    | some excluded => simp
  · rw [leavesOut]
    cases r.allowed with
    | none => simp
    | some allowed => simp

instance (r : Restriction) : DecidablePred r.Admits := fun _ ↦ inferInstanceAs (Decidable (_ ∧ _))

/-! ## Places in a part of a list -/

/-- The places of a filtered list lie in the list in order. Since no element stands in the list twice,
a place is among them exactly if its element is kept. -/
theorem exists_places_filter {α : Type} {l : List α} (hl : l.Nodup) (p : α → Bool) :
    ∃ place : Nat → Nat, StrictMono place ∧ (∀ i, (l.filter p)[i]? = l[place i]?) ∧
      ∀ k, (∃ i < (l.filter p).length, place i = k) ↔ ∃ a, l[k]? = some a ∧ p a := by
  obtain ⟨place, hplace⟩ :=
    List.sublist_iff_exists_orderEmbedding_getElem?_eq.mp (List.filter_sublist (p := p) (l := l))
  refine ⟨place, place.strictMono, hplace, fun k ↦ ⟨?_, ?_⟩⟩
  · rintro ⟨i, hi, rfl⟩
    refine ⟨(l.filter p)[i], ?_, (List.mem_filter.mp (List.getElem_mem hi)).2⟩
    rw [← hplace, List.getElem?_eq_getElem hi]
  · rintro ⟨a, hk, ha⟩
    obtain ⟨i, hi⟩ := List.getElem?_of_mem (List.mem_filter.mpr ⟨List.mem_of_getElem? hk, ha⟩)
    obtain ⟨hlt, -⟩ := List.getElem?_eq_some_iff.mp hi
    have hsame : l[k]? = l[place i]? := by rw [hk, ← hplace, hi]
    obtain ⟨hk', -⟩ := List.getElem?_eq_some_iff.mp hk
    exact ⟨i, hlt, ((List.getElem?_inj hk' hl).mp hsame).symm⟩

/-! ## Ids that are renumbered

`kept` are some of `ids`, and `place` takes the place of each in the former list to its place in the
latter. -/

section Renumbered

variable {ids kept : List Text} {place : Nat → Nat}

theorem place_idxOf (hids : ids.Nodup) (hplace : ∀ i, kept[i]? = ids[place i]?) {v : Text}
    (hv : v ∈ kept) : place (kept.idxOf v) = ids.idxOf v := by
  have hv' : ids[place (kept.idxOf v)]? = some v := by rw [← hplace, List.getElem?_idxOf hv]
  obtain ⟨hlt, hget⟩ := List.getElem?_eq_some_iff.mp hv'
  have hidx := hids.idxOf_getElem _ hlt
  rw [hget] at hidx
  exact hidx.symm

theorem mem_iff_exists_place (hids : ids.Nodup) (hplace : ∀ i, kept[i]? = ids[place i]?)
    {v : Text} : v ∈ kept ↔ v ∈ ids ∧ ∃ i < kept.length, place i = ids.idxOf v := by
  constructor
  · intro hv
    refine ⟨?_, kept.idxOf v, List.idxOf_lt_length_iff.mpr hv, place_idxOf hids hplace hv⟩
    exact List.mem_of_getElem? (by rw [← hplace, List.getElem?_idxOf hv])
  · rintro ⟨hv, i, -, hi⟩
    refine List.mem_of_getElem? (i := i) ?_
    rw [hplace, hi, List.getElem?_idxOf hv]

/-- Edges between ids that are kept, renumbered, are the edges between all ids less those with an end
that is not kept. -/
theorem map_placed_eq_filter (hids : ids.Nodup) (hplace : ∀ i, kept[i]? = ids[place i]?)
    (edges : List Edge) :
    (((edges.filter (Edge.within kept)).map (Edge.placed kept)).map fun c ↦
        (⟨place c.source, place c.target, c.condition⟩ : Connection))
      = ((edges.filter (Edge.within ids)).map (Edge.placed ids)).filter fun c ↦
          (∃ i < kept.length, place i = c.source) ∧ ∃ i < kept.length, place i = c.target := by
  have hplaced : ∀ e ∈ edges.filter (Edge.within kept),
      (⟨place (e.placed kept).source, place (e.placed kept).target, (e.placed kept).condition⟩ :
        Connection) = e.placed ids := by
    intro e he
    obtain ⟨hs, ht⟩ := Edge.within_iff.mp (List.mem_filter.mp he).2
    rw [Edge.placed, Edge.placed, place_idxOf hids hplace hs, place_idxOf hids hplace ht]
  rw [List.map_map, List.filter_map, List.filter_filter]
  refine (List.map_congr_left hplaced).trans (congrArg (List.map _) ?_)
  refine List.filter_congr fun e _ ↦ ?_
  rw [Bool.eq_iff_iff, Bool.and_eq_true, Function.comp_apply, decide_eq_true_iff,
    Edge.within_iff, Edge.within_iff, mem_iff_exists_place hids hplace (v := e.source),
    mem_iff_exists_place hids hplace (v := e.target), Edge.placed]
  tauto

end Renumbered

namespace Graph

variable {r : Restriction} {g : Graph}

/-! ## What is compiled under a restriction -/

/-- A restriction only takes nodes away. -/
theorem compiledNodes_eq_filter :
    g.compiledNodes r = (g.compiledNodes .none).filter fun n ↦ r.Admits n.step.canisterId := by
  rw [compiledNodes, compiledNodes, eligibleNodes, eligibleNodes, List.filter_filter]
  refine List.filter_congr fun n _ ↦ ?_
  rw [Bool.eq_iff_iff, Bool.and_eq_true, decide_eq_true_iff, Node.isEligible_iff,
    Node.isEligible_iff]
  have hnone := Restriction.none_admits n.step.canisterId
  tauto

/-- **A restricted schedule is the part of the full one that its steps induce.** One strictly
increasing map takes its places to the places of the steps that the restriction admits. Steps are
the same, and the connections are those between such places, in the same order. -/
theorem exists_restricted_places (r : Restriction) (g : Graph) :
    let full := g.compile .none
    let part := g.compile r
    ∃ place : Nat → Nat, StrictMono place ∧
      (∀ k, (∃ i < part.steps.length, place i = k) ↔
        ∃ step, full.steps[k]? = some step ∧
          (∀ excluded, r.excluded = some excluded → excluded ≠ "" → step.canisterId ≠ excluded) ∧
          ∀ allowed, r.allowed = some allowed → allowed ≠ [] → step.canisterId ∈ allowed) ∧
      (∀ i, part.steps[i]? = full.steps[place i]?) ∧
      (part.connections.map fun c ↦ ⟨place c.source, place c.target, c.condition⟩)
        = full.connections.filter fun c ↦
          (∃ i < part.steps.length, place i = c.source) ∧
            ∃ i < part.steps.length, place i = c.target := by
  intro full part
  obtain ⟨place, hmono, hnodes, himage⟩ := exists_places_filter
    (nodup_compiledIds (r := .none) (g := g)).of_map fun n ↦ decide (r.Admits n.step.canisterId)
  rw [← compiledNodes_eq_filter] at hnodes himage
  have hsteps : ∀ i, part.steps[i]? = full.steps[place i]? := by
    intro i
    simp only [part, full, compile, steps, List.getElem?_map, hnodes]
  refine ⟨place, hmono, fun k ↦ ?_, hsteps, ?_⟩
  · have hlength : part.steps.length = (g.compiledNodes r).length := List.length_map _
    simp only [← Restriction.admits_iff]
    rw [hlength, himage]
    simp only [full, compile, steps, List.getElem?_map, Option.map_eq_some_iff, decide_eq_true_iff]
    constructor
    · rintro ⟨n, hn, hadmits⟩
      exact ⟨n.step, ⟨n, hn, rfl⟩, hadmits⟩
    · rintro ⟨-, ⟨n, hn, rfl⟩, hadmits⟩
      exact ⟨n, hn, hadmits⟩
  · have hids : ∀ i, (g.compiledIds r)[i]? = (g.compiledIds .none)[place i]? := by
      intro i
      rw [compiledIds, compiledIds, List.getElem?_map, List.getElem?_map, hnodes]
    have hconnections : ∀ r', (g.compile r').connections = (g.edges.filter
        (Edge.within (g.compiledIds r'))).map (Edge.placed (g.compiledIds r')) := fun r' ↦
      connections_eq
    rw [hconnections, hconnections, ← length_compiledIds]
    exact map_placed_eq_filter nodup_compiledIds hids g.edges

/-- A path of three agents with a short cut, where the id of the middle one is that of an older node
as well. -/
def shortCut : Graph where
  nodes := [.plain "b" "", .plain "c" "z", .plain "b" "y", .plain "a" "x"]
  edges := [.plain "e" "a" "b", .plain "f" "b" "c", .plain "g" "a" "c"]

theorem exists_restricted_places_shortCut :
    let part := shortCut.compile ⟨some "y", some ["x", "y", "z"]⟩
    ∃ place : Nat → Nat, StrictMono place ∧ (¬∃ i < part.steps.length, place i = 1) ∧
      ∃ c ∈ part.connections, place c.source = 0 ∧ place c.target = 2 := by
  intro part
  let r : Restriction := ⟨some "y", some ["x", "y", "z"]⟩
  obtain ⟨place, hmono, himage, -, hconnections⟩ := exists_restricted_places r shortCut
  have hbarred : ¬∃ i < part.steps.length, place i = 1 := by
    rw [himage 1]
    rintro ⟨step, hstep, hexcluded, -⟩
    have hstep' : (shortCut.compile .none).steps[1]? = some (Node.plain "b" "y").step := by
      decide +kernel
    obtain rfl := Option.some_inj.mp (hstep'.symm.trans hstep)
    exact hexcluded "y" rfl (by decide) rfl
  have hfirst : ∃ i < part.steps.length, place i = 0 :=
    (himage 0).mpr ⟨(Node.plain "a" "x").step, by decide +kernel,
      Restriction.admits_iff.mp (by decide : r.Admits "x")⟩
  have hlast : ∃ i < part.steps.length, place i = 2 :=
    (himage 2).mpr ⟨(Node.plain "c" "z").step, by decide +kernel,
      Restriction.admits_iff.mp (by decide : r.Admits "z")⟩
  have hmem : (⟨0, 2, .alwaysTrue⟩ : Connection) ∈
      part.connections.map fun c ↦ ⟨place c.source, place c.target, c.condition⟩ := by
    rw [hconnections]
    exact List.mem_filter.mpr ⟨by decide +kernel, decide_eq_true ⟨hfirst, hlast⟩⟩
  obtain ⟨c, hc, heq⟩ := List.mem_map.mp hmem
  exact ⟨place, hmono, hbarred, c, hc, congrArg Connection.source heq,
    congrArg Connection.target heq⟩

end Graph

end AgentFlow
