import AgentFlow.Digraph.Basic

/-!
# Topological order

Kahn's algorithm. Each id waits for the arcs into it; an id whose last arc has been settled joins
the end of a queue, and settling the arcs out of the head of the queue goes on until the queue is
empty. Ids on a cycle or behind one never join, and neither do those behind an id that is never
entered.

The queue starts with the ids that wait for nothing, in the order of the vertices, so the order is
the same for the same lists. Every settled arc is settled once, which bounds the run: the length of
the queue and the number of arcs waited for go down together.
-/

namespace AgentFlow

namespace Digraph

variable {α : Type} [DecidableEq α]

/-! ## Waiting lists -/

/-- Ids with the number of arcs that each waits for. -/
abbrev Waiting (α : Type) := List (α × Nat)

namespace Waiting

/-- The number of arcs that all ids together wait for. -/
def total : Waiting α → Nat
  | [] => 0
  | (_, n) :: rest => n + total rest

/-- Settles one arc into an id. -/
def arrive (v : α) : Waiting α → Waiting α
  | [] => []
  | (u, n) :: rest => if u = v then (u, n - 1) :: rest else (u, n) :: arrive v rest

/-- The number of arcs that an id waits for, if it is known. -/
def count? (w : Waiting α) (v : α) : Option Nat := (w.find? fun p ↦ p.1 = v).map Prod.snd

/-- Settles arcs into ids one after another; gives the ids whose last arc was among them, in the
order in which that happened. -/
def settle : List α → Waiting α → List α × Waiting α
  | [], w => ([], w)
  | v :: vs, w =>
    let rest := settle vs (arrive v w)
    (if count? w v = some 1 then v :: rest.1 else rest.1, rest.2)

theorem total_arrive (v : α) (w : Waiting α) :
    (arrive v w).total + (if count? w v = some 1 then 1 else 0) ≤ w.total := by
  induction w with
  | nil => simp [arrive, total, count?]
  | cons p rest ih =>
    obtain ⟨u, n⟩ := p
    by_cases h : u = v
    · subst h
      simp only [arrive, if_pos, total, count?, List.find?_cons, decide_true, Option.map_some,
        Option.some.injEq]
      split <;> omega
    · have hcount : count? ((u, n) :: rest) v = count? rest v := by
        simp [count?, h]
      rw [hcount]
      simp only [arrive, if_neg h, total]
      omega

theorem total_settle (vs : List α) (w : Waiting α) :
    (settle vs w).1.length + (settle vs w).2.total ≤ w.total := by
  induction vs generalizing w with
  | nil => simp [settle]
  | cons v vs ih =>
    have hstep := total_arrive v w
    have hrest := ih (arrive v w)
    simp only [settle]
    split at hstep <;> rename_i h <;> simp only [h, if_true, if_false, List.length_cons] <;> omega

end Waiting

/-! ## The run -/

/-- Every id that is entered, with the number of arcs into it. -/
def waiting (g : Digraph α) : Waiting α := g.entered.map fun v ↦ (v, g.inDegree v)

/-- Works through a queue; gives the ids in the order in which they leave it. -/
def run (g : Digraph α) : List α → Waiting α → List α
  | [], _ => []
  | v :: queue, w =>
    let settled := Waiting.settle (g.successors v) w
    v :: run g (queue ++ settled.1) settled.2
termination_by queue w => queue.length + w.total
decreasing_by
  have := Waiting.total_settle (g.successors v) w
  simp only [List.length_append, List.length_cons]
  omega

/-- The ids that wait for nothing. -/
def sources (g : Digraph α) : List α :=
  (g.waiting.filter fun p ↦ p.2 = 0).map Prod.fst

/-- The topological order of the ids that are not held back. -/
def order (g : Digraph α) : List α := g.run g.sources g.waiting

end Digraph

end AgentFlow
