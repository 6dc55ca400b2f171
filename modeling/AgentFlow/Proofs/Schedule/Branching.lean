import AgentFlow.Proofs.Json.Height
import AgentFlow.Proofs.Payload.RoundTrip
import AgentFlow.Proofs.Schedule.Writing

/-!
# What a condition means, at every stage

A condition is normalized when a canvas is compiled, written and read when it is stored, and copied
to an edge when a schedule is drawn. Its meaning is its branch, from which kind, label and normal
form are read off, so a stage keeps all three as soon as it keeps the branch. Each does: the normal
form of a branch has that branch, reading back keeps which keys are present and the values of the
two tests, and only those make up a branch.

What a stage cannot keep is a condition that it never hands on. A normal form can always be written,
under the one key of its kind. A condition as it was drawn can be written exactly if none of its
markers holds a value of too many levels or a key that cannot be encoded
(`Condition.writeFault?_eq_none_iff`), although it was accepted and the values of markers mean
nothing.
-/

namespace AgentFlow

/-! ## Writing -/

/-- The field that carries the branches of a kind. -/
def BranchKind.key : BranchKind → Key
  | .onSuccess => .onSuccess
  | .onFailure => .onFailure
  | .always => .always
  | .ifContains => .ifContains
  | .ifEquals => .ifEquals

/-- The written form of a condition, if it can be written. -/
def Condition.checkedWrite (s : Spelling) (c : Condition) : Except WriteFault Json :=
  match c.writeFault? with
  | some fault => .error fault
  | none => .ok (c.write s)

namespace Condition

variable {s : Spelling} {c : Condition} {v : Json}

theorem checkedWrite_of_none (h : c.writeFault? = none) : c.checkedWrite s = .ok (c.write s) := by
  rw [checkedWrite, h]

theorem checkedWrite_eq_ok_iff :
    c.checkedWrite s = .ok v ↔ c.writeFault? = none ∧ c.write s = v := by
  rw [checkedWrite]
  split
  next fault hfault => simp [hfault]
  next hnone => simp [hnone]

/-- **What can be written.** The values of the markers need keys that can be encoded, and one level
less than free values may have, since a condition is written twice. -/
theorem writeFault?_eq_none_iff :
    c.writeFault? = none ↔
      ∀ v ∈ c.markers, v.height < freeHeight ∧ ∃ n, v.unwritable? .keys n = none := by
  rw [writeFault?, Option.or_eq_none_iff, Option.map_eq_none_iff, Option.map_eq_none_iff,
    List.findSome?_eq_none_iff, List.findSome?_eq_none_iff]
  constructor
  · rintro ⟨-, hbelow⟩ v hv
    have hheight : v.height ≤ freeHeight - 1 :=
      Json.height_le_of_unwritable?_eq_none (hbelow v hv)
    exact ⟨Nat.lt_of_le_pred (by decide) hheight, _, hbelow v hv⟩
  · intro h
    have hlevels : ∀ v ∈ c.markers, ∀ n, v.height ≤ n → v.unwritable? .keys n = none := by
      intro v hv n hn
      obtain ⟨_, m, hm⟩ := h v hv
      exact Json.unwritable?_of_height_le hm hn
    exact ⟨fun v hv ↦ hlevels v hv _ (h v hv).1.le,
      fun v hv ↦ hlevels v hv _ (Nat.le_pred_of_lt (h v hv).1)⟩

end Condition

/-- Null in so many arrays. -/
def Json.nested : Nat → Json
  | 0 => .null
  | n + 1 => .array [nested n]

theorem Json.height_nested (n : Nat) : (nested n).height = n + 1 := by
  induction n with
  | zero => rfl
  | succ n ih => rw [nested, height, heightItems, heightItems, ih, Nat.max_zero]

namespace Branch

/-- **A normal form can be written, under one key.** -/
theorem exists_checkedWrite_condition (s : Spelling) (b : Branch) :
    ∃ v, b.condition.checkedWrite s = .ok (.object [(b.kind.key.spell s, v)]) := by
  rw [Condition.checkedWrite_of_none b.writeFault?_condition]
  cases b <;> exact ⟨_, rfl⟩

end Branch

/-! ## Reading -/

namespace Condition

variable {s : Spelling} {c c' : Condition} {v : Json}

theorem kind_eq_of_branch_eq (h : c'.branch = c.branch) : c'.kind = c.kind :=
  congrArg Branch.kind h

theorem label_eq_of_branch_eq (h : c'.branch = c.branch) : c'.label = c.label :=
  congrArg Branch.label h

theorem normalized_eq_of_branch_eq (h : c'.branch = c.branch) : c'.normalized = c.normalized :=
  congrArg Branch.condition h

/-- What was written is accepted and has the branch of what it was written from. -/
theorem exists_branch_eq_of_checkedWrite (h : c.checkedWrite s = .ok v) :
    ∃ c', (read v).result = .ok c' ∧ c'.branch = c.branch := by
  obtain ⟨-, rfl⟩ := checkedWrite_eq_ok_iff.mp h
  exact ⟨c.settled, Reading.result_of_value? (c.value?_read_write s), c.branch_settled⟩

end Condition

/-! ## Drawing -/

/-- An edge bears a condition of the same kind as a connection, is labelled by it, and is of the
default kind exactly if that kind is always. -/
structure Edge.Bears (e : Edge) (c : Connection) : Prop where
  kind_iff : e.kind = .default ↔ c.condition.kind = .always
  exists_condition : ∃ condition, e.data = some ⟨some condition, some condition.label⟩ ∧
    condition.kind = c.condition.kind

theorem Connection.bears_edge (i : Nat) (c : Connection) : (c.edge i).Bears c where
  kind_iff := by
    rw [edge]
    split
    next hkind => exact iff_of_true rfl hkind
    next hkind => exact iff_of_false nofun hkind
  exists_condition := ⟨c.condition, rfl, rfl⟩

/-- If there are connections, the edges of the drawing are those of the connections that join steps,
in order. -/
theorem Schedule.forall₂_bears {s : Schedule} (hne : s.connections ≠ []) :
    List.Forall₂ Edge.Bears s.canvas.edges
      (s.connections.filter (Connection.inRange s.steps.length)) := by
  have hfilter : s.connections.filter (Connection.inRange s.steps.length)
      = (s.connections.zipIdx.filter fun p ↦ p.1.inRange s.steps.length).map Prod.fst := by
    rw [← Function.comp_def, ← List.filter_map, List.zipIdx_map_fst]
  have hnil : ¬s.connections.isEmpty := by simpa using hne
  rw [canvas, drawnEdges, if_neg hnil, hfilter, List.forall₂_map_left_iff,
    List.forall₂_map_right_iff, List.forall₂_same]
  exact fun p _ ↦ p.1.bears_edge p.2

/-! ## All stages -/

namespace Condition

/-- **A condition means the same at every stage.** Its normal form has its kind and label, is
written under the one key of the kind, and is its own normal form. A condition that can be written is
read again with the same kind, label and normal form. An edge that is drawn for a connection has a
condition of the same kind and its label, and is of the default kind exactly if that kind is always.
-/
theorem meaning_throughout (c : Condition) (schedule : Schedule) :
    (c.normalized.kind = c.kind ∧ c.normalized.label = c.label) ∧
    (∀ s, ∃ v, c.normalized.checkedWrite s = .ok (.object [(c.kind.key.spell s, v)])) ∧
    (∀ s, c.normalized.normalized.checkedWrite s = c.normalized.checkedWrite s) ∧
    (∀ s, (∃ v, c.checkedWrite s = .ok v) ↔
      ∀ v ∈ c.markers, v.height < freeHeight ∧ ∃ n, v.unwritable? .keys n = none) ∧
    (∀ s v, c.checkedWrite s = .ok v → ∃ c', (read v).result = .ok c' ∧
      c'.kind = c.kind ∧ c'.label = c.label ∧
      ∀ s', c'.normalized.checkedWrite s' = c.normalized.checkedWrite s') ∧
    (schedule.connections ≠ [] → List.Forall₂ Edge.Bears schedule.canvas.edges
      (schedule.connections.filter (Connection.inRange schedule.steps.length))) := by
  refine ⟨⟨kind_eq_of_branch_eq c.branch_normalized, label_eq_of_branch_eq c.branch_normalized⟩,
    fun s ↦ c.branch.exists_checkedWrite_condition s, fun s ↦ ?_, fun s ↦ ?_, fun s v hv ↦ ?_,
    Schedule.forall₂_bears⟩
  · rw [c.normalized_normalized]
  · rw [← writeFault?_eq_none_iff]
    simp only [checkedWrite_eq_ok_iff, exists_and_left, exists_eq', and_true]
  · obtain ⟨c', hread, hbranch⟩ := exists_branch_eq_of_checkedWrite hv
    refine ⟨c', hread, kind_eq_of_branch_eq hbranch, label_eq_of_branch_eq hbranch, fun s' ↦ ?_⟩
    rw [normalized_eq_of_branch_eq hbranch]

/-- A condition of three keys, of which the first is a marker with a value that is no number and the
second tests nothing. -/
def crowded : Condition where
  onSuccess := none
  onFailure := some (.float .nan)
  always := none
  ifContains := some none
  ifEquals := some (some ⟨"code", "200"⟩)

theorem meaning_throughout_crowded :
    (∃ v c', crowded.checkedWrite .plain = .ok v ∧ (read v).result = .ok c' ∧
      c'.kind = .onFailure ∧ c'.label = "On Failure") ∧
    List.Forall₂ Edge.Bears Schedule.reversed.canvas.edges
      [⟨1, 0, .alwaysTrue⟩, ⟨2, 1, { alwaysTrue with onFailure := some .null }⟩] := by
  obtain ⟨-, -, -, hwrite, hread, hdrawn⟩ := crowded.meaning_throughout Schedule.reversed
  have hmarkers : ∀ v ∈ crowded.markers,
      v.height < freeHeight ∧ ∃ n, v.unwritable? .keys n = none := by
    rintro v hv
    obtain rfl : v = .float .nan := List.mem_singleton.mp hv
    exact ⟨by decide, 1, rfl⟩
  have hinRange : Schedule.reversed.connections.filter
      (Connection.inRange Schedule.reversed.steps.length)
        = [⟨1, 0, .alwaysTrue⟩, ⟨2, 1, { alwaysTrue with onFailure := some .null }⟩] := by
    decide
  obtain ⟨v, hv⟩ := (hwrite .plain).mpr hmarkers
  obtain ⟨c', hc', hkind, hlabel, -⟩ := hread .plain v hv
  exact ⟨⟨v, c', hv, hc', hkind, hlabel⟩, hinRange ▸ hdrawn (by decide)⟩

/-- A condition with a marker whose value has too many levels is accepted, but cannot be written, so
there is nothing to be read again. -/
theorem exists_accepted_unwritten :
    ∃ v c, (read v).result = .ok c ∧ ∀ s w, c.checkedWrite s ≠ .ok w := by
  have hread : ∀ u, (read (.object [("onSuccess", u)])).result
      = .ok ⟨some u, none, none, none, none⟩ := fun _ ↦ rfl
  refine ⟨_, _, hread (Json.nested freeHeight), fun s w hwrite ↦ ?_⟩
  have hlevels := writeFault?_eq_none_iff.mp (checkedWrite_eq_ok_iff.mp hwrite).1 _
    List.mem_cons_self
  rw [Json.height_nested] at hlevels
  exact absurd hlevels.1 (Nat.not_lt.mpr (Nat.le_succ _))

end Condition

end AgentFlow
