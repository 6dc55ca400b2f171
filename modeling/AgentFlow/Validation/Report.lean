import AgentFlow.Payload.Scalar

/-!
# Validation reports

What validation says about a canvas: errors, which make it invalid, and advice, which does not. Both
are meant for display and name the node or edge that they are about.
-/

namespace AgentFlow

/-! ## Types -/

/-- How an issue is shown. -/
inductive Severity where
  /-- As an error. -/
  | error
  /-- As a warning. -/
  | warning
  /-- As information. -/
  | info
  deriving DecidableEq

/-- The name of a severity. -/
def Severity.name : Severity → String
  | .error => "error"
  | .warning => "warning"
  | .info => "info"

/-- The severity of a name. -/
def Severity.ofName? (s : Text) : Option Severity :=
  [Severity.error, .warning, .info].find? (·.name = s)

/-- What a piece of advice is about. -/
inductive AdviceKind where
  /-- The speed of the workflow. -/
  | performance
  /-- Its clarity. -/
  | bestPractice
  /-- What could be saved. -/
  | optimization
  deriving DecidableEq

/-- The name of a kind. -/
def AdviceKind.name : AdviceKind → String
  | .performance => "performance"
  | .bestPractice => "best-practice"
  | .optimization => "optimization"

/-- The kind of a name. -/
def AdviceKind.ofName? (s : Text) : Option AdviceKind :=
  [AdviceKind.performance, .bestPractice, .optimization].find? (·.name = s)

/-- A problem that makes a workflow invalid. -/
structure Issue where
  /-- The node that it is about. -/
  nodeId : Option Text
  /-- The edge that it is about. -/
  edgeId : Option Text
  /-- How it is shown. -/
  severity : Severity
  /-- What is wrong. -/
  message : Text
  /-- What can be done. -/
  suggestion : Option Text
  deriving DecidableEq

/-- A piece of advice. -/
structure Advice where
  /-- The node that it is about. -/
  nodeId : Option Text
  /-- What it is about. -/
  kind : AdviceKind
  /-- What could be better. -/
  message : Text
  /-- What can be done. -/
  suggestion : Text
  deriving DecidableEq

/-- What validation says about a canvas. -/
structure Report where
  /-- Whether the workflow may be saved. -/
  isValid : Bool
  /-- What makes it invalid. -/
  errors : List Issue
  /-- What could be better. -/
  warnings : List Advice
  deriving DecidableEq

/-- The report that finds nothing. -/
def Report.empty : Report := ⟨true, [], []⟩

/-! ## Payloads -/

namespace Issue

/-- The fields of an issue. -/
def record : Record Issue :=
  Issue.mk <$> .optional .nodeId none (Reading.nullable Reading.text)
    <*> .optional .edgeId none (Reading.nullable Reading.text)
    <*> .optional .type .error (Reading.choice Severity.ofName? .notLiteral)
    <*> .required .message Reading.text
    <*> .optional .suggestion none (Reading.nullable Reading.text)

/-- Reads an issue. -/
def read : Json → Reading Issue := record.read

/-- Writes an issue. -/
def write (issue : Issue) : Json :=
  .record .plain
    [(.nodeId, .ofOption .string issue.nodeId), (.edgeId, .ofOption .string issue.edgeId),
     (.type, .string issue.severity.name), (.message, .string issue.message),
     (.suggestion, .ofOption .string issue.suggestion)]

end Issue

namespace Advice

/-- The fields of a piece of advice. -/
def record : Record Advice :=
  Advice.mk <$> .optional .nodeId none (Reading.nullable Reading.text)
    <*> .optional .type .bestPractice (Reading.choice AdviceKind.ofName? .notLiteral)
    <*> .required .message Reading.text <*> .required .suggestion Reading.text

/-- Reads a piece of advice. -/
def read : Json → Reading Advice := record.read

/-- Writes a piece of advice. -/
def write (advice : Advice) : Json :=
  .record .plain
    [(.nodeId, .ofOption .string advice.nodeId), (.type, .string advice.kind.name),
     (.message, .string advice.message), (.suggestion, .string advice.suggestion)]

end Advice

namespace Report

/-- The fields of a report. -/
def record : Record Report :=
  Report.mk <$> .optional .isValid true Reading.flag
    <*> .optional .errors [] (Reading.list Issue.read)
    <*> .optional .warnings [] (Reading.list Advice.read)

/-- Reads a report. -/
def read : Json → Reading Report := record.read

/-- Writes a report. -/
def write (report : Report) : Json :=
  .record .plain
    [(.isValid, .bool report.isValid), (.errors, .ofList Issue.write report.errors),
     (.warnings, .ofList Advice.write report.warnings)]

end Report

end AgentFlow
