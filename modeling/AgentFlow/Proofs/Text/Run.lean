import AgentFlow.Text.Basic
import Mathlib.Data.List.Basic

/-!
# Runs of characters

A run of characters of a class is taken from the head of a text as far as it goes. It ends where the
text does not go on with a character of the class (`Text.Breaks`).
-/

namespace AgentFlow

open CodePoint (char)

namespace Text

theorem ofChars_append (cs ds : List Char) : ofChars (cs ++ ds) = ofChars cs ++ ofChars ds :=
  List.map_append

/-- Whether a text does not go on with a character of a class. -/
def Breaks (p : Char → Bool) (t : Text) : Prop := ∀ c u, t = char c :: u → p c = false

variable {p q : Char → Bool} {t : Text}

theorem breaks_nil : Breaks p [] := fun _ _ h ↦ absurd h (List.cons_ne_nil _ _).symm

theorem breaks_char {c : Char} (hc : p c = false) (t : Text) : Breaks p (char c :: t) := by
  intro d u h
  obtain ⟨rfl, -⟩ : c = d ∧ t = u := by simpa using h
  exact hc

theorem Breaks.mono (ht : Breaks p t) (h : ∀ c, q c → p c) : Breaks q t := by
  intro c u htc
  have hc := ht c u htc
  by_contra hq
  rw [h c (by simpa using hq)] at hc
  exact absurd hc (by simp)

theorem takeChars_of_breaks (ht : Breaks p t) : takeChars p t = [] := by
  fun_cases takeChars p t with
  | case1 c t hc => exact absurd (ht c t rfl) (by simp [hc])
  | case2 => rfl
  | case3 => rfl

theorem takeChars_ofChars_append {cs : List Char} (hcs : ∀ c ∈ cs, p c) (ht : Breaks p t) :
    takeChars p (ofChars cs ++ t) = cs := by
  induction cs with
  | nil => exact takeChars_of_breaks ht
  | cons c cs ih =>
    have hc := hcs c List.mem_cons_self
    have hrest := ih fun d hd ↦ hcs d (List.mem_cons_of_mem c hd)
    simpa [ofChars, takeChars, hc] using hrest

theorem dropChars_ofChars_append {cs : List Char} (hcs : ∀ c ∈ cs, p c) (ht : Breaks p t) :
    dropChars p (ofChars cs ++ t) = t := by
  have happend := takeChars_append_dropChars p (ofChars cs ++ t)
  rw [takeChars_ofChars_append hcs ht] at happend
  exact List.append_cancel_left happend

end Text

end AgentFlow
