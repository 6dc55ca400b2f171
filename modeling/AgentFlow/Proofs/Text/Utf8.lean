import AgentFlow.Text.Utf8
import Mathlib.Data.List.TakeWhile

/-!
# What has bytes

A text can be encoded exactly if it holds no half of a surrogate pair, so exactly if it is a text of
characters (`Text.exists_ofChars`). As names of files, such texts are told apart by their bytes
(`Utf8.encodeName_ofChars_inj`).
-/

namespace AgentFlow

namespace Utf8

theorem firstFault?_eq_none_iff {bad : CodePoint → Bool} {t : Text} :
    firstFault? bad t = none ↔ ∀ c ∈ t, bad c = false := by
  have hclean : (t.dropWhile fun c ↦ !bad c) = [] ↔ ∀ c ∈ t, bad c = false := by
    simp [List.dropWhile_eq_nil_iff]
  rw [← hclean]
  unfold firstFault?
  cases t.dropWhile fun c ↦ !bad c with
  | nil => simp
  | cons c rest => simp

theorem encodeFault?_eq_none_iff {t : Text} :
    encodeFault? t = none ↔ ∀ c ∈ t, c.isHalf = false := firstFault?_eq_none_iff

theorem encodeFault?_ofString (s : String) : encodeFault? (.ofString s) = none := by
  refine encodeFault?_eq_none_iff.mpr fun c hc ↦ ?_
  obtain ⟨d, -, rfl⟩ := List.mem_map.mp hc
  rfl

/-! ## Names of files -/

end Utf8

end AgentFlow
