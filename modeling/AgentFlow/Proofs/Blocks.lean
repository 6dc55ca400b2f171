import Mathlib.Data.List.Basic

/-!
# Lists of blocks

Bytes are spelled as bits, and values of digits are too: every element becomes a block of a fixed
width, and the blocks are put one after another. What holds of each block, its length, how it
combines with another, what it is for zero, then holds of the whole.
-/

namespace AgentFlow

variable {α β : Type} {f : α → List β} {width : Nat}

theorem length_flatMap_of_length (hwidth : ∀ a, (f a).length = width) (l : List α) :
    (l.flatMap f).length = width * l.length := by
  rw [List.length_flatMap, List.map_congr_left fun a _ ↦ hwidth a, List.map_const',
    List.sum_replicate_nat, Nat.mul_comm]

/-- What combines blocks element by element also combines lists of blocks so. -/
theorem flatMap_zipWith (hwidth : ∀ a, (f a).length = width) {op : α → α → α} {op' : β → β → β}
    (hf : ∀ a b, f (op a b) = List.zipWith op' (f a) (f b)) (l m : List α) :
    (List.zipWith op l m).flatMap f = List.zipWith op' (l.flatMap f) (m.flatMap f) := by
  induction l generalizing m with
  | nil => rfl
  | cons a l ih =>
    cases m with
    | nil => simp
    | cons b m =>
      rw [List.zipWith_cons_cons, List.flatMap_cons, List.flatMap_cons, List.flatMap_cons, ih, hf,
        List.zipWith_append ((hwidth a).trans (hwidth b).symm)]

theorem flatMap_replicate {a : α} {b : β} (hf : f a = List.replicate width b) (n : Nat) :
    (List.replicate n a).flatMap f = List.replicate (width * n) b := by
  induction n with
  | zero => rfl
  | succ n ih =>
    rw [List.replicate_succ, List.flatMap_cons, ih, hf, Nat.mul_succ, Nat.add_comm,
      List.replicate_add]

end AgentFlow
