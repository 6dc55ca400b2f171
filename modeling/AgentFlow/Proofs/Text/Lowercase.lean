import AgentFlow.Text.Blank
import AgentFlow.Text.Lowercase
import Mathlib.Data.List.Infix
import Mathlib.Data.List.TakeWhile

/-!
# The lower case of a part of a text

Lower-casing would respect parts of texts if it looked at one character at a time. It does so but
for the capital sigma, whose lower case depends on what stands around it (`endsWord`). So a part of a
text has a lower case of its own within the text (`lowerWithin`), which is the one that it has alone
if every capital sigma of the part ends a word in both or in neither (`lowerWithin_eq_lowerFrom`). A
part for which this fails breaks a word (`BreaksWord`); one without capital sigmas never does.

Blanks are neither ignorable nor do they have a case, so they end a word as the end of the text does
(`endsWord_append`). That is why trimming a term does not let it break a word
(`BreaksWord.of_trim`).
-/

namespace AgentFlow

open CodePoint (char)

/-! ## Occurrences -/

theorem occursIn_iff {needle t : Text} : occursIn needle t ↔ needle <:+: t := by
  induction t with
  | nil => rw [occursIn, List.isEmpty_iff, List.infix_nil]
  | cons c t ih =>
    rw [occursIn, Bool.or_eq_true, ih, List.isPrefixOf_iff_prefix, List.infix_cons_iff]

/-- A text is its trimmed form with blanks at its ends. -/
theorem exists_strip (t : Text) :
    ∃ lead trail, t = lead ++ strip t ++ trail ∧ (∀ c ∈ lead, isBlank c) ∧
      ∀ c ∈ trail, isBlank c := by
  have hback : t.dropWhile isBlank
      = strip t ++ ((t.dropWhile isBlank).reverse.takeWhile isBlank).reverse := by
    rw [strip, trimBy, ← List.reverse_append, List.takeWhile_append_dropWhile, List.reverse_reverse]
  refine ⟨t.takeWhile isBlank, ((t.dropWhile isBlank).reverse.takeWhile isBlank).reverse, ?_,
    fun c hc ↦ List.mem_takeWhile_imp hc,
    fun c hc ↦ List.mem_takeWhile_imp (List.mem_reverse.mp hc)⟩
  rw [List.append_assoc, ← hback, List.takeWhile_append_dropWhile]

/-! ## Ends of words -/

/-- Whether a capital sigma ends a word between two texts, of which the first is held in reverse. -/
def endsWord (before after : Text) : Bool := meetsCased before && !meetsCased after

theorem notMem_ranges_of_isBlank {c : CodePoint} (hc : isBlank c) :
    inRanges caseIgnorableRanges c.toNat = false ∧ inRanges casedRanges c.toNat = false := by
  have hblanks : ∀ n ∈ [0x85, 0xA0, 0x1680, 0x2028, 0x2029, 0x202F, 0x205F, 0x3000]
      ++ (List.range' 0x09 5 ++ List.range' 0x1C 5 ++ List.range' 0x2000 11),
      inRanges caseIgnorableRanges n = false ∧ inRanges casedRanges n = false := by
    decide +kernel
  refine hblanks _ ?_
  simp only [isBlank, isSpace, Bool.or_eq_true, Bool.and_eq_true, decide_eq_true_iff, beq_iff_eq]
    at hc
  simp only [List.mem_append, List.mem_cons, List.not_mem_nil, List.mem_range'_1]
  omega

theorem meetsCased_of_isBlank {blanks : Text} (h : ∀ c ∈ blanks, isBlank c) :
    meetsCased blanks = false := by
  cases blanks with
  | nil => rfl
  | cons c t =>
    obtain ⟨hignorable, hcased⟩ := notMem_ranges_of_isBlank (h c List.mem_cons_self)
    rw [meetsCased, hignorable, if_neg Bool.false_ne_true, hcased]

/-- No letter is met past blanks. -/
theorem meetsCased_append {blanks : Text} (h : ∀ c ∈ blanks, isBlank c) (t : Text) :
    meetsCased (t ++ blanks) = meetsCased t := by
  induction t with
  | nil => exact meetsCased_of_isBlank h
  | cons c t ih => rw [List.cons_append, meetsCased, meetsCased, ih]

theorem endsWord_append {lead trail : Text} (hlead : ∀ c ∈ lead, isBlank c)
    (htrail : ∀ c ∈ trail, isBlank c) (before after : Text) :
    endsWord (before ++ lead) (after ++ trail) = endsWord before after := by
  rw [endsWord, endsWord, meetsCased_append hlead, meetsCased_append htrail]

/-- A term that stands between two texts breaks a word if a capital sigma of it ends a word there or
in the term alone, but not in both. -/
def BreaksWord (before term after : Text) : Prop :=
  ∃ l r, term = l ++ char 'Σ' :: r ∧
    endsWord (l.reverse ++ before.reverse) (r ++ after) ≠ endsWord l.reverse r

theorem breaksWord_iff {before term after : Text} :
    BreaksWord before term after ↔
      ∃ i ∈ List.range term.length, term[i]? = some (char 'Σ') ∧
        endsWord ((term.take i).reverse ++ before.reverse) (term.drop (i + 1) ++ after)
          ≠ endsWord (term.take i).reverse (term.drop (i + 1)) := by
  constructor
  · rintro ⟨l, r, rfl, hne⟩
    exact ⟨l.length, by simp, by simp, by simpa using hne⟩
  · rintro ⟨i, -, hi, hne⟩
    obtain ⟨hlt, hsigma⟩ := List.getElem?_eq_some_iff.mp hi
    refine ⟨term.take i, term.drop (i + 1), ?_, hne⟩
    rw [← hsigma, List.getElem_cons_drop, List.take_append_drop]

instance (before term after : Text) : Decidable (BreaksWord before term after) :=
  decidable_of_iff _ breaksWord_iff.symm

/-- Blanks at the ends of a term are as good as the end of the text. -/
theorem BreaksWord.of_trim {before lead term trail after : Text} (hlead : ∀ c ∈ lead, isBlank c)
    (htrail : ∀ c ∈ trail, isBlank c) (h : BreaksWord (before ++ lead) term (trail ++ after)) :
    BreaksWord before (lead ++ term ++ trail) after := by
  obtain ⟨l, r, rfl, hne⟩ := h
  refine ⟨lead ++ l, r ++ trail, by simp, ?_⟩
  have halone : endsWord (lead ++ l).reverse (r ++ trail) = endsWord l.reverse r := by
    rw [List.reverse_append]
    exact endsWord_append (fun c hc ↦ hlead c (List.mem_reverse.mp hc)) htrail _ _
  rw [halone]
  simpa using hne

/-! ## Lower case within a text -/

/-- Lower-cases a part of a text that stands between `before`, which is held in reverse, and
`after`. -/
def lowerWithin (after : Text) : Text → Text → Text
  | _, [] => []
  | before, c :: t =>
    (if c = char 'Σ' && endsWord before (t ++ after) then [char 'ς'] else lowerPoint c)
      ++ lowerWithin after (c :: before) t

/-- The lower case of a text is that of its parts within it. -/
theorem lowerFrom_append (before t after : Text) :
    lowerFrom before (t ++ after)
      = lowerWithin after before t ++ lowerFrom (t.reverse ++ before) after := by
  induction t generalizing before with
  | nil => rfl
  | cons c t ih =>
    rw [List.cons_append, lowerFrom, lowerWithin, ih, List.append_assoc, List.reverse_cons,
      List.append_assoc, List.singleton_append, endsWord, Bool.and_assoc]

/-- A part of a text is lower-cased as it is alone if each capital sigma of it ends a word in both
or in neither. -/
theorem lowerWithin_eq_lowerFrom {term own before after : Text}
    (h : ∀ l r, term = l ++ char 'Σ' :: r →
      endsWord (l.reverse ++ (own ++ before)) (r ++ after) = endsWord (l.reverse ++ own) r) :
    lowerWithin after (own ++ before) term = lowerFrom own term := by
  induction term generalizing own with
  | nil => rfl
  | cons c t ih =>
    have hrest : lowerWithin after (c :: own ++ before) t = lowerFrom (c :: own) t := by
      refine ih fun l r hlr ↦ ?_
      have hlonger := h (c :: l) r (by rw [hlr, List.cons_append])
      simpa using hlonger
    have hhead : (decide (c = char 'Σ') && endsWord (own ++ before) (t ++ after))
        = (decide (c = char 'Σ') && endsWord own t) := by
      by_cases hc : c = char 'Σ'
      · have hends : endsWord (own ++ before) (t ++ after) = endsWord own t :=
          h [] t (by rw [hc, List.nil_append])
        rw [hends]
      · rw [decide_eq_false hc, Bool.false_and, Bool.false_and]
    rw [lowerWithin, lowerFrom, hhead, ← List.cons_append, hrest, endsWord, Bool.and_assoc]

/-- **A term that breaks no word** is found in lower case where it stands. -/
theorem lowercase_infix {before term after : Text} (h : ¬BreaksWord before term after) :
    lowercase term <:+: lowercase (before ++ term ++ after) := by
  have halone : ∀ l r, term = l ++ char 'Σ' :: r →
      endsWord (l.reverse ++ ([] ++ before.reverse)) (r ++ after)
        = endsWord (l.reverse ++ []) r := by
    intro l r hlr
    by_contra hne
    rw [List.nil_append, List.append_nil] at hne
    exact h ⟨l, r, hlr, hne⟩
  have hterm : lowerWithin after before.reverse term = lowercase term :=
    lowerWithin_eq_lowerFrom halone
  have htext : lowercase (before ++ term ++ after) = lowerWithin (term ++ after) [] before
      ++ (lowercase term ++ lowerFrom (term.reverse ++ before.reverse) after) := by
    rw [lowercase, List.append_assoc, lowerFrom_append, lowerFrom_append, List.append_nil, hterm]
  exact ⟨_, _, (List.append_assoc _ _ _).trans htext.symm⟩

end AgentFlow
