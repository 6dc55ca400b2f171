import AgentFlow.Proofs.Canvas.Canister
import AgentFlow.Proofs.Canvas.Cycle
import AgentFlow.Proofs.Principal.Codec
import Mathlib.Data.List.Count

/-!
# What makes a canvas invalid

The report on a canvas is said in three conditions that mention no check: an agent lacks a canister,
a canister is not the text of a principal where the settings ask for one, and some node reaches a
cycle. A node can fail at most one of the first two, so it has one error or none, and a cycle has
one error however many there are (`Graph.report_exact`).

None of the three conditions knows an order. The search for a cycle does, and in another order it may
find another cycle, but it finds one exactly if there is one. So neither the verdict nor the number
of errors depends on the order of nodes and edges.
-/

namespace AgentFlow

namespace Node

variable {n : Node} {settings : Settings}

/-! ## Faulty nodes -/

/-- Whether a node is an agent without a canister: there is none, or it is blank. -/
def LacksCanister (n : Node) : Prop :=
  n.kind = .agent ∧ ∀ canister, n.canisterId = some canister → isBlankText canister

/-- Whether a node of any kind has a canister that is not blank and not the text of a principal. -/
def HasUnsoundCanister (n : Node) : Prop :=
  ∃ canister, n.canisterId = some canister ∧ isBlankText canister = false ∧
    ∀ bytes : List UInt8, bytes.length ≤ 29 → canister ≠ Principal.format bytes

/-- Whether a node by itself makes a canvas invalid. -/
def IsFaulty (settings : Settings) (n : Node) : Prop :=
  n.LacksCanister ∨ settings.strictPrincipals ∧ n.HasUnsoundCanister

theorem lacksCanister_iff : n.LacksCanister ↔ n.kind = .agent ∧ n.canister? = none := by
  rw [LacksCanister, Option.eq_none_iff_forall_ne_some]
  refine and_congr_right fun _ ↦ forall_congr' fun canister ↦ ?_
  rw [Ne, canister?_eq_some_iff, not_and, Bool.not_eq_false]

theorem hasUnsoundCanister_iff :
    n.HasUnsoundCanister ↔
      ∃ canister, n.canister? = some canister ∧ ¬Principal.isValid canister := by
  refine exists_congr fun canister ↦ ?_
  rw [canister?_eq_some_iff, and_assoc, Principal.isValid_iff]
  simp [Principal.maxBytes]

theorem isSome_problem?_iff : (n.problem? settings).isSome ↔ n.IsFaulty settings := by
  rw [Option.isSome_iff_ne_none, Ne, problem?_eq_none_iff, IsFaulty, lacksCanister_iff,
    hasUnsoundCanister_iff, not_and_or, Option.isSome_iff_ne_none]
  simp

instance : DecidablePred (IsFaulty settings) := fun _ ↦ decidable_of_iff _ isSome_problem?_iff

end Node

namespace Graph

variable {g h : Graph} {settings : Settings}

/-! ## Cycles -/

/-- Whether some node reaches a cycle. -/
def ReachesCycle (g : Graph) : Prop :=
  ∃ n ∈ g.nodes, ∃ v, g.digraph.Reaches n.id v ∧ g.digraph.OnCycle v

theorem hasCycle_iff : g.hasCycle ↔ g.ReachesCycle := by
  rw [← not_iff_not, Bool.not_eq_true, hasCycle, Digraph.hasCycle_eq_false_iff, ReachesCycle]
  simp [digraph, Digraph.Clear]

instance : Decidable g.ReachesCycle := decidable_of_iff _ hasCycle_iff

/-- Cycles and what reaches them depend on the edges, not on their order. -/
theorem reachesCycle_perm (hnodes : h.nodes.Perm g.nodes) (hedges : h.edges.Perm g.edges) :
    h.ReachesCycle ↔ g.ReachesCycle := by
  have harc : h.digraph.Arc = g.digraph.Arc := by
    funext u v
    refine propext ?_
    simp only [arc_iff, hedges.mem_iff]
  simp only [ReachesCycle, hnodes.mem_iff, Digraph.Reaches, Digraph.OnCycle, Digraph.Leads, harc]

/-! ## The report -/

theorem exists_isFaulty_iff :
    (∃ n ∈ g.nodes, n.IsFaulty settings) ↔ (∃ n ∈ g.nodes, n.LacksCanister) ∨
      settings.strictPrincipals ∧ ∃ n ∈ g.nodes, n.HasUnsoundCanister := by
  constructor
  · rintro ⟨n, hn, hlacks | ⟨hstrict, hunsound⟩⟩
    · exact .inl ⟨n, hn, hlacks⟩
    · exact .inr ⟨hstrict, n, hn, hunsound⟩
  · rintro (⟨n, hn, hlacks⟩ | ⟨hstrict, n, hn, hunsound⟩)
    · exact ⟨n, hn, .inl hlacks⟩
    · exact ⟨n, hn, .inr ⟨hstrict, hunsound⟩⟩

theorem length_problems :
    (g.problems settings).length
      = (g.nodes.countP fun n ↦ n.IsFaulty settings) + (if g.ReachesCycle then 1 else 0) := by
  have hcount : (g.nodes.filterMap (Node.problem? settings)).length
      = g.nodes.countP fun n ↦ n.IsFaulty settings := by
    rw [List.length_filterMap_eq_countP]
    refine List.countP_congr fun n _ ↦ ?_
    rw [Node.isSome_problem?_iff, decide_eq_true_iff]
  rw [problems, List.length_append, hcount]
  by_cases hcycle : g.ReachesCycle
  · rw [if_pos hcycle, if_pos (hasCycle_iff.mpr hcycle), List.length_singleton]
  · rw [if_neg hcycle, if_neg (mt hasCycle_iff.mp hcycle), List.length_nil]

/-- **The report is exact.** A canvas is invalid exactly if an agent lacks a canister, or a canister
is unsound where the settings ask for sound ones, or a node reaches a cycle. There is one error for
each faulty node and one for all cycles. The order of nodes and edges has no part in it. -/
theorem report_exact (settings : Settings) (mode : Text) (g : Graph) :
    ((g.report settings mode).isValid = false ↔
      (∃ n ∈ g.nodes, n.LacksCanister) ∨
        (settings.strictPrincipals ∧ ∃ n ∈ g.nodes, n.HasUnsoundCanister) ∨ g.ReachesCycle) ∧
    (g.report settings mode).errors.length
      = (g.nodes.countP fun n ↦ n.IsFaulty settings) + (if g.ReachesCycle then 1 else 0) ∧
    ∀ h : Graph, h.nodes.Perm g.nodes → h.edges.Perm g.edges →
      (h.report settings mode).isValid = (g.report settings mode).isValid ∧
        (h.report settings mode).errors.length = (g.report settings mode).errors.length := by
  have hlength : ∀ k : Graph, (k.report settings mode).errors.length
      = (k.nodes.countP fun n ↦ n.IsFaulty settings) + (if k.ReachesCycle then 1 else 0) :=
    fun k ↦ (List.length_map _).trans length_problems
  have hinvalid : ∀ k : Graph, (k.report settings mode).isValid = false ↔
      (k.report settings mode).errors.length ≠ 0 := by
    intro k
    have herrors : (k.report settings mode).errors = [] ↔ k.problems settings = [] :=
      report_errors_eq_nil_iff
    rw [← Bool.not_eq_true, report_isValid_iff, ← herrors, Ne, List.length_eq_zero_iff]
  have hperm : ∀ h : Graph, h.nodes.Perm g.nodes → h.edges.Perm g.edges →
      (h.report settings mode).errors.length = (g.report settings mode).errors.length := by
    intro h hnodes hedges
    simp only [hlength, hnodes.countP_eq, reachesCycle_perm hnodes hedges]
  refine ⟨?_, hlength g, fun h hnodes hedges ↦ ⟨?_, hperm h hnodes hedges⟩⟩
  · -- an error is one of a node, which is one of two kinds, or the one of a cycle
    rw [hinvalid, hlength, ← or_assoc, ← exists_isFaulty_iff]
    by_cases hcycle : g.ReachesCycle
    · simp [hcycle]
    · simp [hcycle, List.countP_eq_zero]
  · rw [Bool.eq_iff_iff, ← not_iff_not, Bool.not_eq_true, Bool.not_eq_true, hinvalid, hinvalid,
      hperm h hnodes hedges]

/-- A trigger with an unsound canister. -/
def unsoundTrigger : Node := { Node.plain "t" "x" with kind := .trigger }

/-- An agent without a canister and a trigger with an unsound one. The agent reaches a cycle of an id
that no node has. -/
def muddle : Graph where
  nodes := [.plain "a" " ", unsoundTrigger]
  edges := [.plain "e" "a" "p", .plain "f" "p" "p"]

/-- The same nodes and edges, the last first. -/
def muddleBackward : Graph := ⟨muddle.nodes.reverse, muddle.edges.reverse⟩

theorem length_errors_muddleBackward :
    muddleBackward.nodes.Perm muddle.nodes ∧ muddleBackward.edges.Perm muddle.edges ∧
      (muddleBackward.report (.defaults (.ofText "/")) "sequential").errors.length = 3 := by
  have hcycle : muddle.ReachesCycle := by
    refine ⟨.plain "a" " ", by decide, "p", .inr (.single ?_), .single ?_⟩
    · exact arc_iff.mpr ⟨.plain "e" "a" "p", by decide, rfl, rfl⟩
    · exact arc_iff.mpr ⟨.plain "f" "p" "p", by decide, rfl, rfl⟩
  have hexact := muddle.report_exact (.defaults (.ofText "/")) "sequential"
  have hnodes : muddleBackward.nodes.Perm muddle.nodes := List.reverse_perm _
  have hedges : muddleBackward.edges.Perm muddle.edges := List.reverse_perm _
  refine ⟨hnodes, hedges, ?_⟩
  rw [(hexact.2.2 muddleBackward hnodes hedges).2, hexact.2.1, if_pos hcycle]
  decide +kernel

end Graph

end AgentFlow
