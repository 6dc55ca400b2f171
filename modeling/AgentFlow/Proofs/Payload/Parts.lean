import AgentFlow.Condition
import AgentFlow.Proofs.Payload.Record
import AgentFlow.Step.Loop
import AgentFlow.Step.Target
import AgentFlow.Step.Timeout

/-!
# Parts of records that were written

The parts that nodes, edges and steps are made of. A step target and a loop are written as an object
with one field, which only one alternative of the union has, so they come back as the alternative
that they were. A timeout comes back as a whole number or a binary64 number as it was: both
alternatives may take it, but only one without a conversion. A condition comes back with the keys
that it had.

Step targets and conditions hold free values, which come back as they are written (`settled`).
-/

namespace AgentFlow

/-! ## Parts that stay -/

theorem listMap_eq_self_iff {α : Type} {f : α → α} {l : List α} :
    l.map f = l ↔ ∀ a ∈ l, f a = a := by
  have h : l.map f = l.map id ↔ ∀ a ∈ l, f a = id a := List.map_inj_left
  rwa [List.map_id] at h

theorem optionMap_eq_self_iff {α : Type} {f : α → α} {o : Option α} :
    o.map f = o ↔ ∀ a ∈ o, f a = a := by
  cases o <;> simp

/-! ## Unions -/

namespace Reading

variable {α : Type}

theorem foldl_better_mem (rest : List (Accepted α)) (first : Accepted α) :
    rest.foldl better first ∈ first :: rest := by
  induction rest generalizing first with
  | nil => exact List.mem_cons_self
  | cons next rest ih =>
    obtain h | h := List.mem_cons.mp (ih (better first next))
    · rw [List.foldl_cons, h, better]
      split
      next => exact List.mem_cons_of_mem first List.mem_cons_self
      next => exact List.mem_cons_self
    · exact List.mem_cons_of_mem first (List.mem_cons_of_mem next h)

/-- A union takes a value for what the alternatives that accept it take it for. -/
theorem value?_oneOf {members : List (String × (Json → Reading α))} {v : Json} {a : α}
    (hsome : ∃ m ∈ members, (m.2 v).value? = some a)
    (hall : ∀ m ∈ members, (m.2 v).value? = some a ∨ (m.2 v).value? = none) :
    (oneOf members v).value? = some a := by
  have hvalue : ∀ b ∈ members.filterMap fun m ↦ (m.2 v).toOption, b.value = a := by
    intro b hb
    obtain ⟨m, hm, hmb⟩ := List.mem_filterMap.mp hb
    have hma := hall m hm
    cases hread : m.2 v with
    | error faults => simp [hread, Except.toOption] at hmb
    | ok c =>
      obtain rfl : c = b := by simpa [hread, Except.toOption] using hmb
      simpa [hread, value?] using hma
  have hne : members.filterMap (fun m ↦ (m.2 v).toOption) ≠ [] := by
    obtain ⟨m, hm, hma⟩ := hsome
    cases hread : m.2 v with
    | error faults => simp [hread, value?] at hma
    | ok c =>
      have hc : (m.2 v).toOption = some c := by
        rw [hread]
        rfl
      exact List.ne_nil_of_mem (List.mem_filterMap.mpr ⟨m, hm, hc⟩)
  rw [oneOf]
  split
  next first rest h =>
    rw [h] at hvalue
    exact congrArg some (hvalue _ (foldl_better_mem rest first))
  next h => exact absurd h hne

/-- Where one alternative alone accepts a value, the union takes the value for what that takes it
for. -/
theorem value?_oneOf_only (before : List (String × (Json → Reading α)))
    {after : List (String × (Json → Reading α))} {name : String} {read : Json → Reading α}
    {v : Json} {a : α} (hread : (read v).value? = some a)
    (hothers : ∀ m ∈ before ++ after, (m.2 v).value? = none) :
    (oneOf (before ++ (name, read) :: after) v).value? = some a := by
  apply value?_oneOf
  · exact ⟨(name, read), List.mem_append_right before List.mem_cons_self, hread⟩
  · intro m hm
    obtain hm | hm := List.mem_append.mp hm
    · exact .inr (hothers m (List.mem_append_left after hm))
    · obtain rfl | hm := List.mem_cons.mp hm
      · exact .inl hread
      · exact .inr (hothers m (List.mem_append_right before hm))

/-- Of two alternatives the one that takes a value without a conversion counts, as long as no more
fields are given for the other. -/
theorem value?_oneOf_exact {f g : Json → Reading α} {v : Json} {a : Accepted α} (m n : String)
    (h : f v = .ok a ∧ (∀ b, g v = .ok b → b.weight ≤ a.weight) ∨
      g v = .ok a ∧ ∀ b, f v = .ok b → b.weight ≤ a.weight ∧ b.exact = false)
    (hexact : a.exact) : (oneOf [(m, f), (n, g)] v).value? = some a.value := by
  obtain ⟨hf, hg⟩ | ⟨hg, hf⟩ := h
  · cases hgv : g v with
    | error faults => simp [oneOf, hf, hgv, Except.toOption, value?]
    | ok b =>
      have hb := hg b hgv
      have hbetter : better a b = a := if_neg (by simp [hexact, Nat.not_lt.mpr hb])
      simp [oneOf, hf, hgv, Except.toOption, value?, hbetter]
  · cases hfv : f v with
    | error faults => simp [oneOf, hfv, hg, Except.toOption, value?]
    | ok b =>
      obtain ⟨hweight, hb⟩ := hf b hfv
      have hbetter : better b a = a := if_pos (by simp [hexact, hb]; omega)
      simp [oneOf, hfv, hg, Except.toOption, value?, hbetter]

end Reading

/-! ## Timeouts -/

theorem weight_number_int {n : Int} {a : Accepted Timeout}
    (h : Reading.map Timeout.fractional (.number (.int n)) = .ok a) : a.weight = 0 := by
  rw [Reading.number] at h
  split at h
  next =>
    obtain rfl := Except.ok.inj h
    rfl
  next => exact absurd h (by simp [Reading.refuse, Reading.map])

theorem integer_float {x : Binary64} {a : Accepted Timeout}
    (h : Reading.map Timeout.whole (.integer (.float x)) = .ok a) :
    a.weight = 0 ∧ a.exact = false := by
  rw [Reading.integer] at h
  split at h
  next =>
    split at h
    next =>
      split at h
      next =>
        obtain rfl := Except.ok.inj h
        exact ⟨rfl, rfl⟩
      next => exact absurd h (by simp [Reading.refuse, Reading.map])
    next => exact absurd h (by simp [Reading.refuse, Reading.map])
  next => exact absurd h (by simp [Reading.refuse, Reading.map])

theorem Timeout.value?_read_write (t : Timeout) : (Timeout.read t.write).value? = some t := by
  cases t with
  | whole n =>
    have hint : Reading.map Timeout.whole (.integer (.int n)) = .ok ⟨.whole n, [], 0, true⟩ := rfl
    exact Reading.value?_oneOf_exact (a := ⟨Timeout.whole n, [], 0, true⟩) "int" "float"
      (.inl ⟨hint, fun b hb ↦ (weight_number_int hb).le⟩) rfl
  | fractional x =>
    have hfloat : Reading.map Timeout.fractional (.number (.float x))
        = .ok ⟨.fractional x, [], 0, true⟩ := rfl
    exact Reading.value?_oneOf_exact (a := ⟨Timeout.fractional x, [], 0, true⟩) "int" "float"
      (.inr ⟨hfloat, fun b hb ↦ (integer_float hb).imp_left Eq.le⟩) rfl

namespace Timeout

/-- Whether a timeout is neither infinite nor NaN. -/
def isFinite : Timeout → Bool
  | .whole _ => true
  | .fractional x => x.isFinite

theorem filter_isFinite_eq_self_iff {o : Option Timeout} :
    o.filter isFinite = o ↔ ∀ t ∈ o, t.isFinite := by
  cases o with
  | none => simp
  | some t => simp [Option.filter]

theorem finite_write (t : Option Timeout) :
    (Json.ofOption write t).finite = .ofOption write (t.filter isFinite) := by
  match t with
  | none => rfl
  | some (.whole n) => rfl
  | some (.fractional x) =>
    rw [Option.filter_some, isFinite, Json.ofOption, write, Json.finite]
    split <;> rfl

theorem within_write (t : Timeout) : t.write.Within 1 := by
  cases t <;> exact ⟨True.intro, Nat.le_refl 1⟩

theorem write_ne_null (t : Timeout) : t.write ≠ .null := by
  cases t <;> nofun

end Timeout

/-! ## Alternatives -/

namespace Record

variable {α β : Type} {s : Spelling} {k l : Key} {v : Json} {a : α} {read : Json → Reading α}

theorem value?_alternative (g : α → β) (hv : (read v).value? = some a) :
    ((g <$> Record.required k read).read (.record s [(k, v)])).value? = some (g a) := by
  have hkeys : AllApart [(k, v)] := List.pairwise_singleton _ _
  exact ((hkeys.required List.lookup_cons_self hv).map g).read

theorem value?_alternative_of_apart (g : α → β) (h : l.Apart k) :
    ((g <$> Record.required k read).read (.record s [(l, v)])).value? = none := by
  have hfind : (Fields.spelled s [(l, v)]).find? k = none :=
    Fields.find?_spelled_of_apart (List.forall_mem_singleton.mpr h)
  have hrun : (Record.required k read).run (.spelled s [(l, v)])
      = .error [⟨[.field k.wire], .missing⟩] := by
    rw [Record.required]
    dsimp only
    rw [hfind]
  change (Reading.both (fun (g : α → β) a ↦ g a) (Reading.exactly g)
    ((Record.required k read).run (.spelled s [(l, v)]))).value? = none
  rw [hrun]
  rfl

end Record

/-! ## Step targets -/

namespace AgentCall

/-- The call with its free value as it is written. -/
def settled (call : AgentCall) : AgentCall := { call with config := call.config.finite }

theorem write_settled (s : Spelling) (call : AgentCall) : call.settled.write s = call.write s := by
  rw [write, settled, Json.finite_finite]
  rfl

theorem finite_write (s : Spelling) (call : AgentCall) : (call.write s).finite = call.write s := by
  rw [write, Json.finite_record]
  simp only [List.map_cons, List.map_nil, Json.finite_finite]
  rfl

theorem value?_read_write (s : Spelling) (call : AgentCall) :
    (read (call.write s)).value? = some call.settled := by
  refine Record.value?_read_record (of_decide_eq_true rfl) fun hkeys ↦ ?_
  exact (hkeys.required rfl rfl).map _ |>.seq (hkeys.optional rfl rfl)

end AgentCall

theorem WorkflowCall.value?_read_write (s : Spelling) (call : WorkflowCall) :
    (read (call.write s)).value? = some call := by
  refine Record.value?_read_record (of_decide_eq_true rfl) fun hkeys ↦ ?_
  exact (hkeys.required rfl rfl).map _ |>.seq (hkeys.optional rfl rfl)

namespace StepTarget

/-- The step target with its free value as it is written. -/
def settled : StepTarget → StepTarget
  | .agent call => .agent call.settled
  | .workflow call => .workflow call

/-- The free values of a step target. -/
def freeValues : StepTarget → List Json
  | .agent call => [call.config]
  | .workflow _ => []

theorem settled_eq_self_iff {target : StepTarget} :
    target.settled = target ↔ ∀ v ∈ target.freeValues, v.IsPlain := by
  cases target with
  | agent call =>
    obtain ⟨canisterId, config⟩ := call
    simp [settled, AgentCall.settled, freeValues, Json.IsPlain]
  | workflow call => simp [settled, freeValues]

theorem write_settled (s : Spelling) (target : StepTarget) :
    target.settled.write s = target.write s := by
  cases target with
  | agent call => rw [settled, write, AgentCall.write_settled]; rfl
  | workflow call => rfl

theorem write_ne_null (s : Spelling) (target : StepTarget) : target.write s ≠ .null := by
  cases target <;> nofun

theorem finite_write (s : Spelling) (target : StepTarget) :
    (target.write s).finite = target.write s := by
  cases target with
  | agent call =>
    rw [write, Json.finite_record, List.map_singleton, AgentCall.finite_write]
  | workflow call => rfl

theorem within_write (s : Spelling) {target : StepTarget} {n : Nat} (hn : 0 < n)
    (h : ∀ v ∈ target.freeValues, v.Within n) : (target.write s).Within (n + 2) := by
  cases target with
  | agent call =>
    have hconfig : call.config.Within n := h _ List.mem_cons_self
    apply Json.within_record (of_decide_eq_true rfl)
    rw [List.forall_mem_singleton]
    apply Json.within_record (of_decide_eq_true rfl)
    simp only [List.forall_mem_cons]
    exact ⟨⟨True.intro, hn⟩, hconfig.finite, nofun⟩
  | workflow call =>
    apply Json.within_record (of_decide_eq_true rfl)
    rw [List.forall_mem_singleton]
    apply Json.within_record (of_decide_eq_true rfl)
    simp only [List.forall_mem_cons]
    exact ⟨⟨True.intro, hn⟩, ⟨True.intro, hn⟩, nofun⟩

theorem value?_read_write (s : Spelling) (target : StepTarget) :
    (read (target.write s)).value? = some target.settled := by
  cases target with
  | agent call =>
    have hread : (readAgent (write s (.agent call))).value? = some (.agent call.settled) :=
      Record.value?_alternative _ (call.value?_read_write s)
    apply Reading.value?_oneOf_only [] hread
    exact List.forall_mem_singleton.mpr (Record.value?_alternative_of_apart _ (by decide))
  | workflow call =>
    have hread : (readWorkflow (write s (.workflow call))).value? = some (.workflow call) :=
      Record.value?_alternative _ (call.value?_read_write s)
    apply Reading.value?_oneOf_only [("AgentTarget", readAgent)] hread
    exact List.forall_mem_singleton.mpr (Record.value?_alternative_of_apart _ (by decide))

end StepTarget

/-! ## Loops -/

theorem Loop.value?_readBound (bound : Option Int) :
    (Loop.readBound (Loop.writeBound bound)).value? = some bound := by
  cases bound <;> rfl

theorem ForEach.value?_read_write (s : Spelling) (loop : ForEach) :
    (read (loop.write s)).value? = some loop := by
  refine Record.value?_read_record (of_decide_eq_true rfl) fun hkeys ↦ ?_
  exact (hkeys.required rfl rfl).map _ |>.seq (hkeys.optional rfl rfl)
    |>.seq (hkeys.optional rfl rfl) |>.seq (hkeys.optional rfl (Loop.value?_readBound _))

theorem While.value?_read_write (s : Spelling) (loop : While) :
    (read (loop.write s)).value? = some loop := by
  refine Record.value?_read_record (of_decide_eq_true rfl) fun hkeys ↦ ?_
  exact (hkeys.required rfl rfl).map _
    |>.seq (hkeys.optional rfl (Loop.value?_readBound _))

theorem value?_nullable_text (o : Option Text) :
    (Reading.nullable Reading.text (.ofOption .string o)).value? = some o := by
  cases o <;> rfl

theorem Repeat.value?_read_write (s : Spelling) (loop : Repeat) :
    (read (loop.write s)).value? = some loop := by
  refine Record.value?_read_record (of_decide_eq_true rfl) fun hkeys ↦ ?_
  exact (hkeys.required rfl rfl).map _
    |>.seq (hkeys.optional rfl (value?_nullable_text _))

theorem Loop.value?_read_write (s : Spelling) (loop : Loop) :
    (read (loop.write s)).value? = some loop := by
  cases loop with
  | forEach loop =>
    have hread : (readForEach (write s (.forEach loop))).value? = some (.forEach loop) :=
      Record.value?_alternative _ (loop.value?_read_write s)
    apply Reading.value?_oneOf_only [] hread
    simp only [List.nil_append, List.forall_mem_cons]
    refine ⟨?_, ?_, ?_, nofun⟩ <;> exact Record.value?_alternative_of_apart _ (by decide)
  | whileHolds loop =>
    have hread : (readWhile (write s (.whileHolds loop))).value? = some (.whileHolds loop) :=
      Record.value?_alternative _ (loop.value?_read_write s)
    apply Reading.value?_oneOf_only [("ForEachLoop", readForEach)] hread
    simp only [List.cons_append, List.nil_append, List.forall_mem_cons]
    refine ⟨?_, ?_, ?_, nofun⟩ <;> exact Record.value?_alternative_of_apart _ (by decide)
  | repeated loop =>
    have hread : (readRepeat (write s (.repeated loop))).value? = some (.repeated loop) :=
      Record.value?_alternative _ (loop.value?_read_write s)
    apply Reading.value?_oneOf_only [("ForEachLoop", readForEach), ("WhileLoop", readWhile)] hread
    simp only [List.cons_append, List.nil_append, List.forall_mem_cons]
    refine ⟨?_, ?_, ?_, nofun⟩ <;> exact Record.value?_alternative_of_apart _ (by decide)
  | once =>
    have hread : (readOnce (write s .once)).value? = some .once :=
      Record.value?_alternative _ rfl
    apply Reading.value?_oneOf_only [("ForEachLoop", readForEach), ("WhileLoop", readWhile),
      ("RepeatLoop", readRepeat)] hread
    simp only [List.cons_append, List.nil_append, List.forall_mem_cons]
    refine ⟨?_, ?_, ?_, nofun⟩ <;> exact Record.value?_alternative_of_apart _ (by decide)

namespace Loop

theorem write_ne_null (s : Spelling) (loop : Loop) : loop.write s ≠ .null := by
  cases loop <;> nofun

theorem finite_write (s : Spelling) (loop : Loop) : (loop.write s).finite = loop.write s := by
  cases loop with
  | forEach loop =>
    simp [write, ForEach.write, writeBound, Json.finite_record, Json.finite_ofOption, Json.finite]
  | whileHolds loop =>
    simp [write, While.write, writeBound, Json.finite_record, Json.finite_ofOption, Json.finite]
  | repeated loop =>
    simp [write, Repeat.write, Json.finite_record, Json.finite_ofOption, Json.finite]
  | once => rfl

theorem within_writeBound (bound : Option Int) : (writeBound bound).Within 1 :=
  Json.within_ofOption Nat.one_pos fun _ _ ↦ ⟨True.intro, Nat.le_refl 1⟩

theorem within_write (s : Spelling) (loop : Loop) : (loop.write s).Within 3 := by
  have hatom : ∀ t, (Json.string t).Within 1 := fun _ ↦ ⟨True.intro, Nat.le_refl 1⟩
  cases loop with
  | forEach loop =>
    apply Json.within_record (of_decide_eq_true rfl)
    rw [List.forall_mem_singleton]
    apply Json.within_record (of_decide_eq_true rfl)
    simp only [List.forall_mem_cons]
    exact ⟨hatom _, hatom _, hatom _, within_writeBound _, nofun⟩
  | whileHolds loop =>
    apply Json.within_record (of_decide_eq_true rfl)
    rw [List.forall_mem_singleton]
    apply Json.within_record (of_decide_eq_true rfl)
    simp only [List.forall_mem_cons]
    exact ⟨hatom _, within_writeBound _, nofun⟩
  | repeated loop =>
    apply Json.within_record (of_decide_eq_true rfl)
    rw [List.forall_mem_singleton]
    apply Json.within_record (of_decide_eq_true rfl)
    simp only [List.forall_mem_cons]
    exact ⟨⟨True.intro, Nat.le_refl 1⟩, Json.within_ofOption Nat.one_pos fun _ _ ↦ hatom _, nofun⟩
  | once =>
    apply Json.within_record (of_decide_eq_true rfl)
    exact List.forall_mem_singleton.mpr ⟨True.intro, by decide⟩

end Loop

/-! ## Conditions -/

namespace FieldMatch

theorem value?_read_write (s : Spelling) (test : FieldMatch) :
    (read (test.write s)).value? = some test := by
  refine Record.value?_read_record (of_decide_eq_true rfl) fun hkeys ↦ ?_
  exact (hkeys.required rfl rfl).map _ |>.seq (hkeys.required rfl rfl)

theorem within_write (s : Spelling) (test : FieldMatch) : (test.write s).Within 2 := by
  apply Json.within_record (of_decide_eq_true rfl)
  simp only [List.forall_mem_cons]
  exact ⟨⟨True.intro, Nat.le_refl 1⟩, ⟨True.intro, Nat.le_refl 1⟩, nofun⟩

theorem finite_write (s : Spelling) (test : FieldMatch) :
    (test.write s).finite = test.write s := by
  rw [write, Json.finite_record]
  rfl

end FieldMatch

namespace Condition

/-- The condition with the values of its markers as they are written. -/
def settled (c : Condition) : Condition where
  onSuccess := c.onSuccess.map .finite
  onFailure := c.onFailure.map .finite
  always := c.always.map .finite
  ifContains := c.ifContains
  ifEquals := c.ifEquals

theorem branch_settled (c : Condition) : c.settled.branch = c.branch := by
  simp [branch, settled]

theorem settled_eq_self_iff {c : Condition} : c.settled = c ↔ ∀ v ∈ c.markers, v.IsPlain := by
  have hmarker : ∀ o : Option Json, o.map Json.finite = o ↔ ∀ v ∈ o, v.IsPlain := fun _ ↦
    optionMap_eq_self_iff
  obtain ⟨onSuccess, onFailure, always, ifContains, ifEquals⟩ := c
  simp only [settled, markers, mk.injEq, hmarker, and_true, List.mem_filterMap, List.mem_cons,
    List.not_mem_nil, or_false, id_eq]
  constructor
  · rintro ⟨hsuccess, hfailure, halways⟩ v ⟨o, rfl | rfl | rfl, ho⟩
    · exact hsuccess v ho
    · exact hfailure v ho
    · exact halways v ho
  · intro h
    exact ⟨fun v hv ↦ h v ⟨_, .inl rfl, hv⟩, fun v hv ↦ h v ⟨_, .inr (.inl rfl), hv⟩,
      fun v hv ↦ h v ⟨_, .inr (.inr rfl), hv⟩⟩

theorem write_settled (s : Spelling) (c : Condition) : c.settled.write s = c.write s := by
  simp [write, present, settled, Function.comp_def, Json.finite_finite]

/-- The keys of a condition with the values of those that are present. -/
def entries (s : Spelling) (c : Condition) : List (Key × Option Json) :=
  [(.onSuccess, c.onSuccess.map .finite), (.onFailure, c.onFailure.map .finite),
   (.always, c.always.map .finite),
   (.ifContains, c.ifContains.map (.ofOption (FieldMatch.write s))),
   (.ifEquals, c.ifEquals.map (.ofOption (FieldMatch.write s)))]

theorem allApart_entries (s : Spelling) (c : Condition) : AllApart (c.entries s) :=
  of_decide_eq_true rfl

theorem write_eq (s : Spelling) (c : Condition) :
    c.write s = .record s (presentFields (c.entries s)) := rfl

theorem value?_marker {o : Option Json} : ∀ v ∈ o, (readMarker v).value? = some o := by
  rintro v rfl
  rfl

theorem value?_test {s : Spelling} {test : Option (Option FieldMatch)} :
    ∀ v ∈ test.map (Json.ofOption (FieldMatch.write s)), (readTest v).value? = some test := by
  intro v hv
  obtain ⟨o, rfl, rfl⟩ := Option.map_eq_some_iff.mp hv
  rw [readTest, Reading.value?_map,
    Reading.value?_nullable_self nofun fun test ↦ test.value?_read_write s]
  rfl

/-- **A condition comes back with the keys that it had.** -/
theorem value?_read_write (s : Spelling) (c : Condition) :
    (read (c.write s)).value? = some c.settled := by
  have hkeys := c.allApart_entries s
  have hread : record.Yields (.spelled s (presentFields (c.entries s))) c.settled :=
    (hkeys.optional_present rfl value?_marker Eq.symm).map _
      |>.seq (hkeys.optional_present rfl value?_marker Eq.symm)
      |>.seq (hkeys.optional_present rfl value?_marker Eq.symm)
      |>.seq (hkeys.optional_present rfl value?_test fun h ↦ (Option.map_eq_none_iff.mp h).symm)
      |>.seq (hkeys.optional_present rfl value?_test fun h ↦ (Option.map_eq_none_iff.mp h).symm)
  exact hread

theorem eq_of_mem_present {s : Spelling} {c : Condition} {f : Key × Json}
    (hf : f ∈ presentFields (c.entries s)) :
    (∃ v ∈ c.markers, f.2 = v.finite) ∨ ∃ test, f.2 = .ofOption (FieldMatch.write s) test := by
  have hmarker : ∀ o ∈ [c.onSuccess, c.onFailure, c.always], some f.2 = o.map Json.finite →
      ∃ v ∈ c.markers, f.2 = v.finite := by
    intro o ho hfo
    obtain ⟨v, rfl, hv⟩ := Option.map_eq_some_iff.mp hfo.symm
    exact ⟨v, List.mem_filterMap.mpr ⟨some v, ho, rfl⟩, hv.symm⟩
  have htest : ∀ o : Option (Option FieldMatch),
      some f.2 = o.map (Json.ofOption (FieldMatch.write s)) →
      ∃ test, f.2 = .ofOption (FieldMatch.write s) test := by
    intro o hfo
    obtain ⟨test, -, htest⟩ := Option.map_eq_some_iff.mp hfo.symm
    exact ⟨test, htest.symm⟩
  have hmem : (f.1, some f.2) ∈ c.entries s := mem_presentFields.mp hf
  simp only [entries, List.mem_cons, Prod.mk.injEq, List.not_mem_nil, or_false] at hmem
  obtain ⟨-, h⟩ | ⟨-, h⟩ | ⟨-, h⟩ | ⟨-, h⟩ | ⟨-, h⟩ := hmem
  · exact .inl (hmarker _ (by simp) h)
  · exact .inl (hmarker _ (by simp) h)
  · exact .inl (hmarker _ (by simp) h)
  · exact .inr (htest _ h)
  · exact .inr (htest _ h)

theorem finite_write (s : Spelling) (c : Condition) : (c.write s).finite = c.write s := by
  have hfield : ∀ f ∈ presentFields (c.entries s), (f.1, f.2.finite) = id f := by
    intro f hf
    refine Prod.ext rfl ?_
    obtain ⟨v, -, hv⟩ | ⟨test, htest⟩ := eq_of_mem_present hf
    · rw [id, hv, Json.finite_finite]
    · simp only [id, htest, Json.finite_ofOption, FieldMatch.finite_write]
  rw [write_eq, Json.finite_record, List.map_congr_left hfield, List.map_id]

theorem within_write (s : Spelling) {c : Condition} {n : Nat} (hn : 2 ≤ n)
    (h : ∀ v ∈ c.markers, v.Within n) : (c.write s).Within (n + 1) := by
  rw [write_eq]
  apply Json.within_record (c.allApart_entries s).presentFields
  intro f hf
  obtain ⟨v, hv, hfv⟩ | ⟨test, htest⟩ := eq_of_mem_present hf
  · rw [hfv]
    exact (h v hv).finite
  · rw [htest]
    exact Json.within_ofOption (by omega) fun test _ ↦ (test.within_write s).mono hn

end Condition

end AgentFlow
