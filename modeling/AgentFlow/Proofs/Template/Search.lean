import AgentFlow.Proofs.Template.Identity
import AgentFlow.Proofs.Text.Lowercase

/-!
# What a search finds

A term is trimmed, and is then looked for, in lower case, in the lower case of the name, the
description and the tags of a template (`Template.isFound_iff`). This looks for more than the term
as it is written, which is what lower-casing is for. It can also look for less, because the term and
the text are lower-cased on their own: a capital sigma that ends the term gets its final form there,
and does not in the middle of a word of the text. So a term is found where it is written unless it
breaks a word there (`Template.isAbout_strip`), and it may well be missed if it does.
-/

namespace AgentFlow

open CodePoint (char)

namespace Template

variable {t : Template} {term category text : Text}

/-- The texts of a template in which a term is looked for. -/
def texts (t : Template) : List Text := t.name :: t.description :: t.tags

/-! ## What is looked for -/

theorem mentions_iff : mentions term text ↔ lowercase term <:+: lowercase text := occursIn_iff

theorem isAbout_iff :
    t.isAbout term ↔ term = [] ∨ ∃ text ∈ t.texts, lowercase term <:+: lowercase text := by
  have hempty : (("" : String) : Text) = [] := rfl
  simp only [isAbout, hempty, Bool.or_eq_true, decide_eq_true_iff, List.any_eq_true, mentions_iff,
    texts, List.exists_mem_cons_iff, or_assoc]

theorem inCategory_iff :
    t.inCategory category ↔
      category = allCategories ∨ t.category = category ∨ (savedMark : Text) <+: t.id := by
  rw [inCategory, Bool.or_eq_true, Bool.or_eq_true, decide_eq_true_iff, decide_eq_true_iff, isSaved,
    List.isPrefixOf_iff_prefix, or_assoc]

theorem isFound_iff :
    t.isFound term category ↔
      (category = allCategories ∨ t.category = category ∨ (savedMark : Text) <+: t.id) ∧
      (term = [] ∨ ∃ text ∈ t.texts, lowercase term <:+: lowercase text) := by
  rw [isFound, Bool.and_eq_true, inCategory_iff, isAbout_iff]

/-! ## What is written -/

/-- **A term that is written in a template** is found there, blanks at its ends or not, unless it
breaks a word where it stands. -/
theorem isAbout_strip {before after : Text} (hmem : before ++ term ++ after ∈ t.texts)
    (h : ¬BreaksWord before term after) : t.isAbout (strip term) := by
  obtain ⟨lead, trail, hterm, hlead, htrail⟩ := exists_strip term
  have hstripped : ¬BreaksWord (before ++ lead) (strip term) (trail ++ after) := by
    intro hbreaks
    have hwhole := hbreaks.of_trim hlead htrail
    rw [← hterm] at hwhole
    exact h hwhole
  have hsame : before ++ lead ++ strip term ++ (trail ++ after) = before ++ term ++ after := by
    conv_rhs => rw [hterm]
    simp only [List.append_assoc]
  exact isAbout_iff.mpr (.inr ⟨_, hmem, hsame ▸ lowercase_infix hstripped⟩)

/-- **What a search finds.** A trimmed term finds a template in the categories in which it is shown,
where the lower case of the term stands in the lower case of one of its texts; the empty term finds
all. A term that is written in one of the texts finds it, unless the term breaks a word there. And
the search of a library lists, of the templates of the library and in their order, those that are
found. -/
theorem found_where_written (term category : Text) :
    (∀ t : Template, t.isFound (strip term) category ↔
      (category = allCategories ∨ t.category = category ∨ (savedMark : Text) <+: t.id) ∧
      (strip term = [] ∨ ∃ text ∈ t.texts, lowercase (strip term) <:+: lowercase text)) ∧
    (∀ t : Template,
      (category = allCategories ∨ t.category = category ∨ (savedMark : Text) <+: t.id) →
      ∀ text ∈ t.texts, ∀ before after, text = before ++ term ++ after →
        t.isFound (strip term) category ∨ BreaksWord before term after) ∧
    ∀ (library : Library) (storage : Storage) (ts : List Template),
      library.templates storage = .ok ts →
      ∃ found, library.search storage term category = .ok found ∧ found.Sublist ts ∧
        ∀ t ∈ ts, t ∈ found ↔ t.isFound (strip term) category := by
  refine ⟨fun t ↦ isFound_iff, fun t hshown text hmem before after htext ↦ ?_,
    fun library storage ts hts ↦ ?_⟩
  · subst htext
    by_cases hbreaks : BreaksWord before term after
    · exact .inr hbreaks
    · refine .inl ?_
      rw [isFound, Bool.and_eq_true]
      exact ⟨inCategory_iff.mpr hshown, isAbout_strip hmem hbreaks⟩
  · refine ⟨_, map_eq_ok_iff.mpr ⟨ts, hts, rfl⟩, List.filter_sublist, fun t ht ↦ ?_⟩
    rw [List.mem_filter]
    exact and_iff_right ht

/-- A template with a name of two words, which both hold a capital sigma. -/
def twoWords : Template where
  id := "t"
  name := "ΟΔΟΣ ΑΣΑ"
  description := ""
  category := "general"
  nodes := []
  edges := []
  mode := .sequential
  thumbnail := none
  difficulty := "intermediate"
  estimatedTime := ""
  tags := []

/-- Terms that end with a blank: one behind a sigma, one for which a saved template is listed. -/
theorem found_where_written_twoWords :
    twoWords.isFound (strip "ΔΟΣ ") "general" ∧
    ∃ found, Library.firstLibrary.search
        (Library.firstLibrary.save .empty (Library.agentForm .null)).storage "workflow " "finance"
        = .ok found ∧ (Library.agentTemplate .null).settled ∈ found := by
  obtain ⟨-, hname, -⟩ := found_where_written "ΔΟΣ " "general"
  obtain ⟨-, hdescription, hsearch⟩ := found_where_written "workflow " "finance"
  have hfound : twoWords.isFound (strip "ΔΟΣ ") "general" ∨ BreaksWord "Ο" "ΔΟΣ " "ΑΣΑ" :=
    hname twoWords (.inr (.inl rfl)) _ List.mem_cons_self _ _ rfl
  have hsaved : (Library.agentTemplate .null).settled.isFound (strip "workflow ") "finance" ∨
      BreaksWord "Saved " "workflow " "template" :=
    hdescription _ (.inr (.inr (by decide))) _ (List.mem_cons_of_mem _ List.mem_cons_self) _ _ rfl
  obtain ⟨ts, hts, hafter⟩ := Library.templates_save
    (Library.allFree_graph_agentForm .null trivial) Library.outcome_save_agentForm
  obtain rfl := Except.ok.inj hts
  obtain ⟨found, hlisted, -, hmem⟩ := hsearch _ _ _ hafter
  exact ⟨hfound.resolve_right (by decide +kernel), found, hlisted,
    (hmem _ List.mem_cons_self).mpr (hsaved.resolve_right (by decide +kernel))⟩

/-- A term that is written in the name of a template, in the middle of a word, does not find it. -/
theorem exists_unfound_written :
    ∃ (t : Template) (term before after : Text), before ++ term ++ after ∈ t.texts ∧
      t.isFound (strip term) allCategories = false :=
  ⟨twoWords, "ΑΣ", "ΟΔΟΣ ", "Α", List.mem_cons_self, by decide +kernel⟩

end Template

end AgentFlow
