import AgentFlow.Proofs.Digraph.Cycle

/-!
# The search as a recursion

The search for cycles works on a stack of frames. The textbook search is recursive: it paints ids
white, grey and black, and the path is that of its calls. This file states the recursion by what it
returns (`Visits`) and shows that both return the same closed path, or both none.

The stack stands for what the recursion has still to do after the present call. So a stack has a
meaning in terms of the recursion alone (`Resumes`): go through the neighbours that are left in the
newest frame, and unless that ends the search, paint the id of the frame black and resume the frames
below. Each step of the search is one rule of the recursion, read from inside the calls that it is
in. The converse needs nothing more, since the recursion returns one thing only (`Visits.unique`).

The search paints nothing. It keeps the ids that were not met, which are the white ones, and has the
grey ones on its stack (`Coloured`); the rest is black.
-/

namespace AgentFlow

namespace Digraph

variable {α : Type}

/-! ## The recursion -/

/-- How far the search has come with an id. -/
inductive Colour where
  /-- It was not met yet. -/
  | white
  /-- It is on the path. -/
  | grey
  /-- It is finished. -/
  | black

/-- What searching through some neighbours comes to. -/
inductive Outcome (α : Type) where
  /-- A closed path, which ends the whole search. -/
  | cycle (path : List α)
  /-- No cycle; the ids have these colours now. -/
  | finished (colour : α → Colour)

variable [DecidableEq α] {neighbours : α → List α}

/-- **The recursive search** through a list of neighbours of the last id of a path, by its colours
before and by its outcome. -/
inductive Visits (neighbours : α → List α) :
    List α → (α → Colour) → List α → Outcome α → Prop
  /-- No neighbour is left. -/
  | done {path : List α} {colour : α → Colour} : Visits neighbours path colour [] (.finished colour)
  /-- A neighbour on the path ends the search with the part of the path from there on, closed. -/
  | grey {path us : List α} {colour : α → Colour} {u : α} : colour u = .grey →
    Visits neighbours path colour (u :: us) (.cycle (path.drop (path.idxOf u) ++ [u]))
  /-- A finished neighbour is passed over. -/
  | black {path us : List α} {colour : α → Colour} {u : α} {outcome : Outcome α} :
    colour u = .black → Visits neighbours path colour us outcome →
    Visits neighbours path colour (u :: us) outcome
  /-- A neighbour that was not met is searched, and a cycle is found in this way. -/
  | whiteCycle {path us cycle : List α} {colour : α → Colour} {u : α} : colour u = .white →
    Visits neighbours (path ++ [u]) (Function.update colour u .grey) (neighbours u)
      (.cycle cycle) →
    Visits neighbours path colour (u :: us) (.cycle cycle)
  /-- A neighbour that was not met is searched and finished, and the others follow. -/
  | white {path us : List α} {colour colour' : α → Colour} {u : α} {outcome : Outcome α} :
    colour u = .white →
    Visits neighbours (path ++ [u]) (Function.update colour u .grey) (neighbours u)
      (.finished colour') →
    Visits neighbours path (Function.update colour' u .black) us outcome →
    Visits neighbours path colour (u :: us) outcome

/-- What the recursive search from some roots returns. Roots are the neighbours of an empty path. -/
def Returns (neighbours : α → List α) (colour : α → Colour) (roots : List α) :
    Option (List α) → Prop
  | some cycle => Visits neighbours [] colour roots (.cycle cycle)
  | none => ∃ colour', Visits neighbours [] colour roots (.finished colour')

/-- The recursion has one outcome. -/
theorem Visits.unique {path us : List α} {colour : α → Colour} {outcome outcome' : Outcome α}
    (h : Visits neighbours path colour us outcome)
    (h' : Visits neighbours path colour us outcome') : outcome = outcome' := by
  induction h generalizing outcome' with
  | done =>
    cases h'
    rfl
  | grey hu =>
    cases h' with
    | grey _ => rfl
    | black hu' _ | whiteCycle hu' _ | white hu' _ _ => cases hu.symm.trans hu'
  | black hu _ ih =>
    cases h' with
    | black _ hrest => exact ih hrest
    | grey hu' | whiteCycle hu' _ | white hu' _ _ => cases hu.symm.trans hu'
  | whiteCycle hu _ ih =>
    cases h' with
    | whiteCycle _ hcycle => exact ih hcycle
    | white _ hfinished _ => cases ih hfinished
    | grey hu' | black hu' _ => cases hu.symm.trans hu'
  | white hu _ _ ih ihrest =>
    cases h' with
    | whiteCycle _ hcycle => cases ih hcycle
    | white _ hfinished hrest =>
      -- the search of the neighbour ends with one colouring, so the others start from the same one
      obtain rfl := Outcome.finished.inj (ih hfinished)
      exact ihrest hrest
    | grey hu' | black hu' _ => cases hu.symm.trans hu'

section Roots

variable {colour : α → Colour} {u : α} {us : List α} {found : Option (List α)}

/-- A root that is finished is passed over. -/
theorem Returns.black (hu : colour u = .black) (h : Returns neighbours colour us found) :
    Returns neighbours colour (u :: us) found := by
  cases found with
  | some cycle => exact Visits.black hu h
  | none =>
    obtain ⟨colour', hfinished⟩ := h
    exact ⟨colour', .black hu hfinished⟩

/-- After a root that is finished without a cycle, the others follow. -/
theorem Returns.white {colour' : α → Colour} (hu : colour u = .white)
    (hfinished : Visits neighbours [u] (Function.update colour u .grey) (neighbours u)
      (.finished colour'))
    (h : Returns neighbours (Function.update colour' u .black) us found) :
    Returns neighbours colour (u :: us) found := by
  cases found with
  | some cycle => exact Visits.white hu hfinished h
  | none =>
    obtain ⟨colour'', hrest⟩ := h
    exact ⟨colour'', .white hu hfinished hrest⟩

/-- The recursion returns one thing only. -/
theorem Returns.unique {found' : Option (List α)} (h : Returns neighbours colour us found)
    (h' : Returns neighbours colour us found') : found = found' := by
  cases found with
  | none =>
    obtain ⟨_, hfinished⟩ := h
    cases found' with
    | none => rfl
    | some cycle' => cases Visits.unique hfinished h'
  | some cycle =>
    cases found' with
    | none =>
      obtain ⟨_, hfinished⟩ := h'
      cases Visits.unique h hfinished
    | some cycle' => rw [Outcome.cycle.inj (Visits.unique h h')]

end Roots

/-! ## What a stack stands for -/

/-- The path of a stack, from the root on. -/
def pathOf (stack : List (Frame α)) : List α := (stack.map Prod.fst).reverse

omit [DecidableEq α] in
theorem pathOf_cons (v : α) (us : List α) (stack : List (Frame α)) :
    pathOf ((v, us) :: stack) = pathOf stack ++ [v] :=
  List.reverse_cons

/-- **What is left of the recursion** inside the calls that a stack stands for, the newest one
first. -/
inductive Resumes (neighbours : α → List α) :
    List (Frame α) → (α → Colour) → Outcome α → Prop
  /-- All calls are finished. -/
  | nil {colour : α → Colour} : Resumes neighbours [] colour (.finished colour)
  /-- The newest call finds a cycle. -/
  | cycle {v : α} {us cycle : List α} {stack : List (Frame α)} {colour : α → Colour} :
    Visits neighbours (pathOf ((v, us) :: stack)) colour us (.cycle cycle) →
    Resumes neighbours ((v, us) :: stack) colour (.cycle cycle)
  /-- The newest call is finished, and the ones below it go on. -/
  | pop {v : α} {us : List α} {stack : List (Frame α)} {colour colour' : α → Colour}
    {outcome : Outcome α} :
    Visits neighbours (pathOf ((v, us) :: stack)) colour us (.finished colour') →
    Resumes neighbours stack (Function.update colour' v .black) outcome →
    Resumes neighbours ((v, us) :: stack) colour outcome

namespace Resumes

variable {u v : α} {us : List α} {stack : List (Frame α)} {colour : α → Colour}
  {outcome : Outcome α}

theorem black (hu : colour u = .black) (h : Resumes neighbours ((v, us) :: stack) colour outcome) :
    Resumes neighbours ((v, u :: us) :: stack) colour outcome := by
  cases h with
  | cycle hcycle => exact .cycle (.black hu hcycle)
  | pop hfinished hrest => exact .pop (.black hu hfinished) hrest

/-- A frame that is pushed is a call inside the frame below it. -/
theorem white (hu : colour u = .white)
    (h : Resumes neighbours ((u, neighbours u) :: (v, us) :: stack)
      (Function.update colour u .grey) outcome) :
    Resumes neighbours ((v, u :: us) :: stack) colour outcome := by
  cases h with
  | cycle hcycle =>
    rw [pathOf_cons] at hcycle
    exact .cycle (.whiteCycle hu hcycle)
  | pop hfinished hbelow =>
    rw [pathOf_cons] at hfinished
    cases hbelow with
    | cycle hcycle => exact .cycle (.white hu hfinished hcycle)
    | pop hothers hrest => exact .pop (.white hu hfinished hothers) hrest

end Resumes

/-! ## Colours -/

/-- The colours of the ids that are entered, when `fresh` are the ids that were not met yet. -/
structure Coloured (g : Digraph α) (fresh path : List α) (colour : α → Colour) : Prop where
  /-- The ids that were not met are white. -/
  white_iff : ∀ v, g.Entered v → (colour v = .white ↔ v ∈ fresh)
  /-- The ids on the path are grey. -/
  grey_iff : ∀ v, g.Entered v → (colour v = .grey ↔ v ∈ path)

namespace Coloured

variable {g : Digraph α} {fresh path : List α} {colour : α → Colour} {u v : α}

omit [DecidableEq α] in
theorem eq_black (h : g.Coloured fresh path colour) (hv : g.Entered v) (hfresh : v ∉ fresh)
    (hpath : v ∉ path) : colour v = .black := by
  cases hcolour : colour v with
  | white => exact absurd ((h.white_iff v hv).mp hcolour) hfresh
  | grey => exact absurd ((h.grey_iff v hv).mp hcolour) hpath
  | black => rfl

/-- A fresh id is painted grey when it joins the path. -/
theorem push (h : g.Coloured fresh path colour) (hnodup : fresh.Nodup) :
    g.Coloured (fresh.erase u) (path ++ [u]) (Function.update colour u .grey) where
  white_iff v hv := by
    rw [hnodup.mem_erase_iff, ← h.white_iff v hv]
    by_cases huv : v = u
    · simp [huv]
    · simp [huv]
  grey_iff v hv := by
    rw [List.mem_append, List.mem_singleton, ← h.grey_iff v hv]
    by_cases huv : v = u
    · simp [huv]
    · simp [huv]

/-- An id is painted black when it leaves the path. -/
theorem pop (h : g.Coloured fresh (path ++ [v]) colour) (hfresh : v ∉ fresh) (hpath : v ∉ path) :
    g.Coloured fresh path (Function.update colour v .black) where
  white_iff w hw := by
    by_cases hwv : w = v
    · simp [hwv, hfresh]
    · rw [Function.update_of_ne hwv, h.white_iff w hw]
  grey_iff w hw := by
    by_cases hwv : w = v
    · simp [hwv, hpath]
    · rw [Function.update_of_ne hwv, h.grey_iff w hw, List.mem_append, List.mem_singleton,
        or_iff_left hwv]

end Coloured

/-! ## The search and the recursion -/

theorem closePath_eq_drop (path : List α) (v : α) :
    closePath path v = path.drop (path.idxOf v) ++ [v] := by
  rw [closePath, List.dropWhile_eq_drop_findIdx_not, List.idxOf]
  congr 3
  funext u
  simp [beq_eq_decide]

/-- What a search comes to is what the recursion that its stack stands for comes to. -/
def Search.Mirrors (g : Digraph α) (stack : List (Frame α)) (colour : α → Colour) :
    Search α → Prop
  | .cycle path => Resumes g.successors stack colour (.cycle path)
  | .clear rest => ∃ colour', g.Coloured rest [] colour' ∧
      Resumes g.successors stack colour (.finished colour')

theorem Search.Mirrors.imp {g : Digraph α} {stack stack' : List (Frame α)}
    {colour colour' : α → Colour} {result : Search α} (h : result.Mirrors g stack colour)
    (himp : ∀ outcome, Resumes g.successors stack colour outcome →
      Resumes g.successors stack' colour' outcome) : result.Mirrors g stack' colour' := by
  cases result with
  | cycle path => exact himp _ h
  | clear rest =>
    obtain ⟨final, hfinal, hresumes⟩ := h
    exact ⟨final, hfinal, himp _ hresumes⟩

namespace Exploring

variable {g : Digraph α} {fresh : List α} {stack : List (Frame α)} {colour : α → Colour}

/-- **A whole search** does what is left of the recursion. -/
theorem mirrors (h : g.Exploring fresh none stack)
    (hcolour : g.Coloured fresh (pathOf stack) colour) :
    (g.search fresh stack).Mirrors g stack colour := by
  fun_induction Digraph.search g fresh stack generalizing colour
  case case1 fresh => exact ⟨colour, hcolour, .nil⟩
  case case2 fresh v stack ih =>
    -- the call returns, and the id turns black although the search does not note it
    have hv : v ∈ v :: stack.map Prod.fst := List.mem_cons_self
    have hnotMem : v ∉ pathOf stack := by
      rw [pathOf, List.mem_reverse]
      exact (List.nodup_cons.mp h.nodup_path).1
    rw [pathOf_cons] at hcolour
    exact (ih h.leave (hcolour.pop (h.notMem_fresh v hv) hnotMem)).imp fun _ ↦ .pop .done
  case case3 fresh v u us stack path hu =>
    rw [mem_path_attach] at hu
    have hgrey : colour u = .grey := (hcolour.grey_iff u h.entered_head).mpr hu
    rw [if_pos hu, closePath_eq_drop]
    exact Resumes.cycle (.grey hgrey)
  case case4 fresh v u us stack path hu hfresh ih =>
    rw [mem_path_attach] at hu
    have hwhite : colour u = .white := (hcolour.white_iff u h.entered_head).mpr hfresh
    have hpush : g.Coloured (fresh.erase u) (pathOf ((u, g.successors u) :: (v, us) :: stack))
        (Function.update colour u .grey) := by
      rw [pathOf_cons]
      exact hcolour.push h.nodup_fresh
    rw [if_neg hu, if_pos hfresh]
    exact (ih (h.look.descend hfresh) hpush).imp fun _ ↦ .white hwhite
  case case5 fresh v u us stack path hu hfresh ih =>
    rw [mem_path_attach] at hu
    have hblack : colour u = .black := hcolour.eq_black h.entered_head hfresh hu
    rw [if_neg hu, if_neg hfresh]
    exact (ih (h.skip hu hfresh) hcolour).imp fun _ ↦ .black hblack

/-- **The search from all roots** is the recursive one. -/
theorem returns {vs : List α} (h : g.Exploring fresh none []) (hcolour : g.Coloured fresh [] colour)
    (hvs : vs ⊆ g.vertices) : Returns g.successors colour vs (g.searchRoots fresh vs) := by
  induction vs generalizing fresh colour with
  | nil => exact ⟨colour, .done⟩
  | cons v vs ih =>
    have hv : g.Entered v := .inl (hvs List.mem_cons_self)
    have hvs' : vs ⊆ g.vertices := fun u hu ↦ hvs (List.mem_cons_of_mem v hu)
    rw [Digraph.searchRoots]
    by_cases hfresh : v ∈ fresh
    · rw [if_pos hfresh]
      have hwhite : colour v = .white := (hcolour.white_iff v hv).mpr hfresh
      have hstart := h.start hfresh (hvs List.mem_cons_self)
      have hholds := hstart.search
      have hmirrors := hstart.mirrors (hcolour.push h.nodup_fresh)
      cases hresult : g.search (fresh.erase v) [(v, g.successors v)] with
      | cycle path =>
        rw [hresult] at hmirrors
        -- nothing is left below the root, so the cycle is found in the call for the root
        cases hmirrors with
        | cycle hcycle => exact Visits.whiteCycle hwhite hcycle
        | pop _ hnil => cases hnil
      | clear rest =>
        rw [hresult] at hholds hmirrors
        obtain ⟨final, hfinal, hresumes⟩ := hmirrors
        cases hresumes with
        | pop hfinished hnil =>
          cases hnil
          exact (ih hholds.1 hfinal hvs').white hwhite hfinished
    · rw [if_neg hfresh]
      exact (ih h hcolour hvs').black (hcolour.eq_black hv hfresh List.not_mem_nil)

end Exploring

/-! ## The search in full -/

variable {g : Digraph α}

theorem coloured_entered (g : Digraph α) : g.Coloured g.entered [] fun _ ↦ .white where
  white_iff v hv := by simpa using mem_entered.mpr hv
  grey_iff v _ := by simp

/-- **The search returns what the recursion returns**, and nothing else is returned by it. -/
theorem findCycle?_eq_iff_returns {found : Option (List α)} :
    g.findCycle? = found ↔ Returns g.successors (fun _ ↦ .white) g.vertices found := by
  have hreturns : Returns g.successors (fun _ ↦ .white) g.vertices g.findCycle? :=
    g.exploring_entered.returns g.coloured_entered (List.Subset.refl g.vertices)
  constructor
  · rintro rfl
    exact hreturns
  · exact hreturns.unique

end Digraph

end AgentFlow
