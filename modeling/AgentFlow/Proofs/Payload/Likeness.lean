import AgentFlow.Proofs.Json.Canonical
import AgentFlow.Proofs.Payload.Parts
import Mathlib.Data.List.Forall2
import Mathlib.Tactic.MkIffOfInductiveProp

/-!
# Likeness of records that were written

Two records of the same fields are alike exactly if they are so field by field; where a field may be
left out, it has to be left out of both or of neither (`Json.alike_present_iff`). So two parts of
steps and connections are written alike exactly if they are the same field by field, with texts and
free values up to likeness (`Alike`). Free values are compared as they are written (`settled`).
-/

namespace AgentFlow

/-! ## Options -/

theorem optionRel_map_iff {α β : Type} {r : β → β → Prop} {f : α → β} {o p : Option α} :
    Option.Rel r (o.map f) (p.map f) ↔ Option.Rel (fun a b ↦ r (f a) (f b)) o p := by
  cases o <;> cases p <;> simp

theorem optionRel_congr {α : Type} {r q : α → α → Prop} (h : ∀ a b, r a b ↔ q a b)
    {o p : Option α} : Option.Rel r o p ↔ Option.Rel q o p := by
  cases o <;> cases p <;> simp [h]

theorem optionRel_eq_iff {α : Type} {o p : Option α} : Option.Rel Eq o p ↔ o = p := by
  cases o <;> cases p <;> simp

namespace Json

/-! ## Atoms and lists -/

@[simp] theorem alike_string_iff {t u : Text} : (string t).Alike (string u) ↔ t.Alike u := by
  simp [Alike]

@[simp] theorem alike_int_iff {m n : Int} : (int m).Alike (int n) ↔ m = n := by
  simp [Alike]

@[simp] theorem alike_bool_iff {b c : Bool} : (bool b).Alike (bool c) ↔ b = c := by
  simp [Alike]

@[simp] theorem alike_null_iff {v : Json} : v.Alike null ↔ v = null := by
  cases v <;> simp [Alike]

@[simp] theorem null_alike_iff {v : Json} : null.Alike v ↔ null = v := by
  simp [Alike]

section Lists

variable {α : Type} {f : α → Json}

theorem alikeItems_iff {vs ws : List Json} : AlikeItems vs ws ↔ List.Forall₂ Alike vs ws := by
  induction vs generalizing ws with
  | nil => simp [AlikeItems]
  | cons v vs ih => cases ws <;> simp [AlikeItems, ih]

theorem alike_ofList_iff {l m : List α} :
    (ofList f l).Alike (ofList f m) ↔ List.Forall₂ (fun a b ↦ (f a).Alike (f b)) l m := by
  simp [ofList, Alike, alikeItems_iff, List.forall₂_map_left_iff, List.forall₂_map_right_iff]

theorem alike_ofOption_iff (hnull : ∀ a, f a ≠ .null) {o p : Option α} :
    (ofOption f o).Alike (ofOption f p) ↔ Option.Rel (fun a b ↦ (f a).Alike (f b)) o p := by
  cases o <;> cases p <;> simp [ofOption, hnull, Ne.symm (hnull _)]

end Lists

/-! ## Records -/

section Records

variable {fields others : Fields} {key : Text} {v w : Json} {s : Spelling}

theorem alike_object_iff :
    (object fields).Alike (object others) ↔
      (∀ key, key ∈ fields.map Prod.fst ↔ key ∈ others.map Prod.fst) ∧
        ∀ f ∈ fields, ∃ w, (f.1, w) ∈ others ∧ f.2.Alike w := by
  simp only [Alike, object.injEq, exists_eq_left', alikeFields_iff]

/-- A first field of the same name in both can be compared by itself. -/
theorem alike_cons_iff (hfields : key ∉ fields.map Prod.fst) (hothers : key ∉ others.map Prod.fst) :
    (object ((key, v) :: fields)).Alike (object ((key, w) :: others)) ↔
      v.Alike w ∧ (object fields).Alike (object others) := by
  have hne : ∀ f ∈ fields, f.1 ≠ key := fun f hf hkey ↦
    hfields (hkey ▸ List.mem_map_of_mem hf)
  rw [alike_object_iff, alike_object_iff, List.forall_mem_cons]
  simp only [List.map_cons, List.mem_cons]
  constructor
  · rintro ⟨hkeys, ⟨u, hu, hvu⟩, hvalues⟩
    have hu : u = w := by
      obtain hu | hu := hu
      · exact (Prod.mk.inj hu).2
      · exact absurd (List.mem_map_of_mem hu) hothers
    refine ⟨hu ▸ hvu, fun l ↦ ?_, fun f hf ↦ ?_⟩
    · by_cases hl : l = key
      · simp only [hl, hfields, hothers]
      · simpa [hl] using hkeys l
    · obtain ⟨u, hu | hu, hfu⟩ := hvalues f hf
      · exact absurd (Prod.mk.inj hu).1 (hne f hf)
      · exact ⟨u, hu, hfu⟩
  · rintro ⟨hvw, hkeys, hvalues⟩
    refine ⟨fun l ↦ or_congr_right (hkeys l), ⟨w, .inl rfl, hvw⟩, fun f hf ↦ ?_⟩
    obtain ⟨u, hu, hfu⟩ := hvalues f hf
    exact ⟨u, .inr hu, hfu⟩

theorem spell_notMem_present {k : Key} {entries : List (Key × Option Json)}
    (h : ∀ e ∈ entries, k.Apart e.1) :
    Text.ofString (k.spell s) ∉ (Fields.spelled s (presentFields entries)).map Prod.fst := by
  simp only [Fields.spelled, List.map_map, List.mem_map, not_exists, not_and, Function.comp_apply]
  intro f hf hname
  have hmem : (f.1, some f.2) ∈ entries := mem_presentFields.mp hf
  exact (h _ hmem).spell_ne s s (Text.ofString_inj.mp hname).symm

/-- **Records are alike field by field.** What is left out of one is left out of the other. -/
theorem alike_present_iff {entries others : List (Key × Option Json)} (hkeys : AllApart entries)
    (hsame : entries.map Prod.fst = others.map Prod.fst) :
    (record s (presentFields entries)).Alike (record s (presentFields others)) ↔
      List.Forall₂ (fun e o ↦ Option.Rel Alike e.2 o.2) entries others := by
  change (object (Fields.spelled s _)).Alike (object (Fields.spelled s _)) ↔ _
  induction entries generalizing others with
  | nil =>
    obtain rfl : others = [] := List.map_eq_nil_iff.mp hsame.symm
    simp [presentFields, Fields.spelled, alike_object_iff]
  | cons e entries ih =>
    obtain ⟨o, others, rfl⟩ : ∃ o rest, others = o :: rest := by
      cases others with
      | nil => exact absurd hsame (List.cons_ne_nil _ _)
      | cons o others => exact ⟨o, others, rfl⟩
    obtain ⟨k, e⟩ := e
    obtain ⟨l, o⟩ := o
    obtain ⟨rfl, hrest⟩ : k = l ∧ entries.map Prod.fst = others.map Prod.fst :=
      List.cons.inj hsame
    obtain ⟨hk, happart⟩ := List.pairwise_cons.mp hkeys
    have hentries := spell_notMem_present (s := s) (k := k) fun f hf ↦
      hk f.1 (List.mem_map_of_mem hf)
    have hothers := spell_notMem_present (s := s) (k := k) fun f hf ↦
      hk f.1 (hrest ▸ List.mem_map_of_mem hf)
    rw [List.forall₂_cons, ← ih happart hrest]
    cases e with
    | none =>
      cases o with
      | none => simp [presentFields]
      | some w =>
        refine iff_of_false (fun h ↦ ?_) (fun h ↦ Option.not_rel_none_some h.1)
        exact hentries (((alike_object_iff.mp h).1 _).mpr List.mem_cons_self)
    | some v =>
      cases o with
      | none =>
        refine iff_of_false (fun h ↦ ?_) (fun h ↦ Option.not_rel_some_none h.1)
        exact hothers (((alike_object_iff.mp h).1 _).mp List.mem_cons_self)
      | some w =>
        rw [Option.rel_some_some]
        exact alike_cons_iff hentries hothers

theorem presentFields_given (written : List (Key × Json)) :
    presentFields (written.map fun f ↦ (f.1, some f.2)) = written := by
  induction written with
  | nil => rfl
  | cons f written ih => exact congrArg (f :: ·) ih

theorem alike_record_iff {written others : List (Key × Json)} (hkeys : AllApart written)
    (hsame : written.map Prod.fst = others.map Prod.fst) :
    (record s written).Alike (record s others) ↔
      List.Forall₂ (fun f g ↦ f.2.Alike g.2) written others := by
  have hmap : ∀ l : List (Key × Json),
      (l.map fun f ↦ (f.1, some f.2)).map Prod.fst = l.map Prod.fst := fun l ↦ List.map_map
  have happart : AllApart (written.map fun f ↦ (f.1, some f.2)) := by
    rw [AllApart, hmap]
    exact hkeys
  have hpresent := alike_present_iff (s := s) happart
    ((hmap written).trans (hsame.trans (hmap others).symm))
  rw [presentFields_given, presentFields_given] at hpresent
  rw [hpresent, List.forall₂_map_left_iff, List.forall₂_map_right_iff]
  simp only [Option.rel_some_some]

end Records

end Json

/-! ## Timeouts -/

theorem Timeout.alike_write_iff {t u : Timeout} : t.write.Alike u.write ↔ t = u := by
  cases t <;> cases u <;> simp [write, Json.Alike]

/-! ## Step targets -/

/-- Whether two calls of an agent are the same, with free values up to likeness. -/
@[mk_iff]
structure AgentCall.Alike (a b : AgentCall) : Prop where
  canisterId : a.canisterId.Alike b.canisterId
  config : a.config.Alike b.config

/-- Whether two calls of a workflow are the same. -/
@[mk_iff]
structure WorkflowCall.Alike (a b : WorkflowCall) : Prop where
  workflowId : a.workflowId.Alike b.workflowId
  inputMapping : a.inputMapping.Alike b.inputMapping

/-- Whether two step targets are the same, with free values up to likeness. -/
inductive StepTarget.Alike : StepTarget → StepTarget → Prop
  | agent {a b : AgentCall} (h : a.Alike b) : Alike (.agent a) (.agent b)
  | workflow {a b : WorkflowCall} (h : a.Alike b) : Alike (.workflow a) (.workflow b)

theorem AgentCall.alike_write_iff (s : Spelling) {a b : AgentCall} :
    (a.write s).Alike (b.write s) ↔ a.settled.Alike b.settled := by
  rw [write, write, Json.alike_record_iff, alike_iff]
  · simp [settled]
  · exact of_decide_eq_true rfl
  · rfl

theorem WorkflowCall.alike_write_iff (s : Spelling) {a b : WorkflowCall} :
    (a.write s).Alike (b.write s) ↔ a.Alike b := by
  rw [write, write, Json.alike_record_iff, alike_iff]
  · simp
  · exact of_decide_eq_true rfl
  · rfl

namespace StepTarget

/-- Both alternatives of a step target, with what is called in one of them. -/
def entries (s : Spelling) : StepTarget → List (Key × Option Json)
  | .agent call => [(.agent, some (call.write s)), (.agency, none)]
  | .workflow call => [(.agent, none), (.agency, some (call.write s))]

theorem write_eq (s : Spelling) (target : StepTarget) :
    target.write s = .record s (presentFields (target.entries s)) := by
  cases target <;> rfl

theorem alike_write_iff (s : Spelling) {t u : StepTarget} :
    (t.write s).Alike (u.write s) ↔ t.settled.Alike u.settled := by
  have hkeys : AllApart (t.entries s) := by cases t <;> exact of_decide_eq_true rfl
  have hsame : (t.entries s).map Prod.fst = (u.entries s).map Prod.fst := by
    cases t <;> cases u <;> rfl
  rw [write_eq, write_eq, Json.alike_present_iff hkeys hsame]
  cases t with
  | agent a =>
    cases u with
    | agent b =>
      simp only [entries, List.forall₂_cons, Option.rel_some_some, AgentCall.alike_write_iff]
      exact ⟨fun h ↦ .agent h.1, fun h ↦ match h with | .agent h => ⟨h, .none, .nil⟩⟩
    | workflow b => exact iff_of_false (fun h ↦ nomatch h) (fun h ↦ nomatch h)
  | workflow a =>
    cases u with
    | agent b => exact iff_of_false (fun h ↦ nomatch h) (fun h ↦ nomatch h)
    | workflow b =>
      simp only [entries, List.forall₂_cons, Option.rel_some_some, WorkflowCall.alike_write_iff]
      exact ⟨fun h ↦ .workflow h.2.1, fun h ↦ match h with | .workflow h => ⟨.none, h, .nil⟩⟩

end StepTarget

/-! ## Loops -/

/-- Whether two runs for each item are the same. -/
@[mk_iff]
structure ForEach.Alike (a b : ForEach) : Prop where
  source : a.source.Alike b.source
  itemVariable : a.itemVariable.Alike b.itemVariable
  indexVariable : a.indexVariable.Alike b.indexVariable
  maxIterations : a.maxIterations = b.maxIterations

/-- Whether two runs while a condition holds are the same. -/
@[mk_iff]
structure While.Alike (a b : While) : Prop where
  condition : a.condition.Alike b.condition
  maxIterations : a.maxIterations = b.maxIterations

/-- Whether two numbers of runs are the same. -/
@[mk_iff]
structure Repeat.Alike (a b : Repeat) : Prop where
  count : a.count = b.count
  indexVariable : Option.Rel Text.Alike a.indexVariable b.indexVariable

/-- Whether two loops are the same. -/
inductive Loop.Alike : Loop → Loop → Prop
  | forEach {a b : ForEach} (h : a.Alike b) : Alike (.forEach a) (.forEach b)
  | whileHolds {a b : While} (h : a.Alike b) : Alike (.whileHolds a) (.whileHolds b)
  | repeated {a b : Repeat} (h : a.Alike b) : Alike (.repeated a) (.repeated b)
  | once : Alike .once .once

theorem Loop.alike_writeBound_iff {m n : Option Int} :
    (Loop.writeBound m).Alike (Loop.writeBound n) ↔ m = n := by
  refine (Json.alike_ofOption_iff nofun).trans ?_
  simp only [Json.alike_int_iff]
  exact optionRel_eq_iff

theorem ForEach.alike_write_iff (s : Spelling) {a b : ForEach} :
    (a.write s).Alike (b.write s) ↔ a.Alike b := by
  rw [write, write, Json.alike_record_iff, alike_iff]
  · simp [Loop.alike_writeBound_iff]
  · exact of_decide_eq_true rfl
  · rfl

theorem While.alike_write_iff (s : Spelling) {a b : While} :
    (a.write s).Alike (b.write s) ↔ a.Alike b := by
  rw [write, write, Json.alike_record_iff, alike_iff]
  · simp [Loop.alike_writeBound_iff]
  · exact of_decide_eq_true rfl
  · rfl

theorem Repeat.alike_write_iff (s : Spelling) {a b : Repeat} :
    (a.write s).Alike (b.write s) ↔ a.Alike b := by
  rw [write, write, Json.alike_record_iff, alike_iff]
  · simp [Json.alike_ofOption_iff]
  · exact of_decide_eq_true rfl
  · rfl

namespace Loop

/-- All alternatives of a loop, with what one of them says. -/
def entries (s : Spelling) : Loop → List (Key × Option Json)
  | .forEach a =>
    [(.forEach, some (a.write s)), (.whileLoop, none), (.repeated, none), (.none, none)]
  | .whileHolds a =>
    [(.forEach, none), (.whileLoop, some (a.write s)), (.repeated, none), (.none, none)]
  | .repeated a =>
    [(.forEach, none), (.whileLoop, none), (.repeated, some (a.write s)), (.none, none)]
  | .once => [(.forEach, none), (.whileLoop, none), (.repeated, none), (.none, some .null)]

theorem write_eq (s : Spelling) (loop : Loop) :
    loop.write s = .record s (presentFields (loop.entries s)) := by
  cases loop <;> rfl

theorem alike_write_iff (s : Spelling) {a b : Loop} :
    (a.write s).Alike (b.write s) ↔ a.Alike b := by
  have hkeys : AllApart (a.entries s) := by cases a <;> exact of_decide_eq_true rfl
  have hsame : (a.entries s).map Prod.fst = (b.entries s).map Prod.fst := by
    cases a <;> cases b <;> rfl
  rw [write_eq, write_eq, Json.alike_present_iff hkeys hsame]
  constructor
  · intro h
    cases a <;> cases b <;>
      simp only [entries, List.forall₂_cons, Option.rel_some_some, Option.not_rel_some_none,
        Option.not_rel_none_some, false_and, and_false, ForEach.alike_write_iff,
        While.alike_write_iff, Repeat.alike_write_iff] at h
    · exact .forEach h.1
    · exact .whileHolds h.2.1
    · exact .repeated h.2.2.1
    · exact .once
  · rintro (h | h | h | _)
    · exact .cons (.some ((ForEach.alike_write_iff s).mpr h)) (.cons .none (.cons .none
        (.cons .none .nil)))
    · exact .cons .none (.cons (.some ((While.alike_write_iff s).mpr h)) (.cons .none
        (.cons .none .nil)))
    · exact .cons .none (.cons .none (.cons (.some ((Repeat.alike_write_iff s).mpr h))
        (.cons .none .nil)))
    · exact .cons .none (.cons .none (.cons .none (.cons (.some rfl) .nil)))

end Loop

/-! ## Conditions -/

/-- Whether two comparisons are the same. -/
@[mk_iff]
structure FieldMatch.Alike (a b : FieldMatch) : Prop where
  field : a.field.Alike b.field
  value : a.value.Alike b.value

/-- Whether two conditions have the same keys, each with the same value. -/
@[mk_iff]
structure Condition.Alike (c d : Condition) : Prop where
  onSuccess : Option.Rel Json.Alike c.onSuccess d.onSuccess
  onFailure : Option.Rel Json.Alike c.onFailure d.onFailure
  always : Option.Rel Json.Alike c.always d.always
  ifContains : Option.Rel (Option.Rel FieldMatch.Alike) c.ifContains d.ifContains
  ifEquals : Option.Rel (Option.Rel FieldMatch.Alike) c.ifEquals d.ifEquals

theorem FieldMatch.alike_write_iff (s : Spelling) {a b : FieldMatch} :
    (a.write s).Alike (b.write s) ↔ a.Alike b := by
  rw [write, write, Json.alike_record_iff, alike_iff]
  · simp
  · exact of_decide_eq_true rfl
  · rfl

theorem Condition.alike_write_iff (s : Spelling) {c d : Condition} :
    (c.write s).Alike (d.write s) ↔ c.settled.Alike d.settled := by
  have htest : ∀ o p : Option (Option FieldMatch),
      Option.Rel Json.Alike (o.map (Json.ofOption (FieldMatch.write s)))
          (p.map (Json.ofOption (FieldMatch.write s))) ↔
        Option.Rel (Option.Rel FieldMatch.Alike) o p := by
    intro o p
    rw [optionRel_map_iff]
    refine optionRel_congr fun a b ↦ ?_
    rw [Json.alike_ofOption_iff nofun]
    exact optionRel_congr fun a b ↦ FieldMatch.alike_write_iff s
  have hsame : (c.entries s).map Prod.fst = (d.entries s).map Prod.fst := rfl
  rw [write_eq, write_eq, Json.alike_present_iff (c.allApart_entries s) hsame, alike_iff]
  simp only [entries, settled, List.forall₂_cons, htest, List.forall₂_nil_left_iff, and_true]

end AgentFlow
