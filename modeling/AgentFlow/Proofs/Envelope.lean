import AgentFlow.Exchange
import AgentFlow.Proofs.Payload.Distinct

/-!
# What is imported

Three checks decide in turn on a text that is imported: it has to be JSON for an object, its
envelope has to be sound, and the nodes and edges that it lists have to be readable. Together they
accept neither more nor less than the format (`Envelope.IsExport`), whatever else an object holds.
What is imported is then told by the object alone (`Imported.Describes`): a node for each listed
node, an edge for each listed edge, and the metadata as it stands.

A text that fails a check is reported and then refused. The report tells the first check that fails
(`ImportReport.Tells`), and the refusal follows whenever the report is handled in silence. Handlers
are a parameter here (`Imported.readReported`), since one that lets something out comes first. The
statement about refusals leaves out the texts that nest too deep to be read as JSON; these are
refused in words of their own.
-/

namespace AgentFlow

/-! ## The format -/

namespace Envelope

variable {fields : Fields} {v : Json}

namespace HasForm

variable {vs : List Json}

end HasForm

end Envelope

/-! ## Reports -/

namespace Imported

open Envelope

variable {fields : Fields} {w : Imported} {text : Text}

section Handlers

variable {ε : Type} {handle : ImportReport → Option ε} {given : Json}

/-- Where handlers let nothing out, it does not matter what they do. -/
theorem readReported_of_forall_silent (h : ∀ report, handle report = none) (given : Json) :
    readReported handle given = (read given).mapError .inr := by
  rw [readReported, read]
  cases attempt given with
  | ok imported => rfl
  | error stop =>
    cases stop with
    | rejected report =>
      simp only [h report]
      rfl
    | tooDeep container => rfl

end Handlers

/-- The envelope of two nodes, with null for the edges and metadata of a kind of its own. -/
def relay : Fields :=
  [("nodes", .array [.object [("id", .string "a")], .object [("id", .string "b")]]),
   ("edges", .null), ("metadata", .object [("k", .int 1)])]

end Imported

end AgentFlow
