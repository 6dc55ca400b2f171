import AgentFlow.Condition
import AgentFlow.Step.Target
import AgentFlow.Step.Loop
import AgentFlow.Step.Timeout
import AgentFlow.Json.Parser
import AgentFlow.Json.Printer
import AgentFlow.Principal.Basic
import AgentFlow.Text.Lowercase
import AgentFlow.Text.Digit
import AgentFlow.Canvas.Edge
import AgentFlow.Canvas.Graph
import AgentFlow.Digraph.Basic
import AgentFlow.Digraph.Cycle
import AgentFlow.Digraph.Level
import AgentFlow.Digraph.Order
import AgentFlow.Canvas.ExecutionMode
import AgentFlow.Canvas.Layout
import AgentFlow.Eligibility
import AgentFlow.Notice
import AgentFlow.Schedule.Basic
import AgentFlow.Schedule.Compile
import AgentFlow.Schedule.Canvas
import AgentFlow.Estimate
import AgentFlow.Settings.Environment
import AgentFlow.Identifier
import AgentFlow.Validation.Check
import AgentFlow.Exchange
import AgentFlow.Run.Picker
import AgentFlow.Run.Readiness
import AgentFlow.Run.Request
import AgentFlow.Run.Snapshot
import AgentFlow.Template.Basic
import AgentFlow.Template.Library
import AgentFlow.Text.Utf8
import AgentFlow.Payload.Moment
import AgentFlow.Proofs.Canvas.Order
import AgentFlow.Proofs.Schedule.RoundTrip
import AgentFlow.Proofs.Schedule.Appearance
import AgentFlow.Proofs.Digraph.Copy
import AgentFlow.Proofs.Digraph.Renaming
import AgentFlow.Proofs.Digraph.Tie
import AgentFlow.Proofs.Digraph.Trim
import AgentFlow.Proofs.Digraph.Level
import AgentFlow.Proofs.Schedule.Canvas
import AgentFlow.Proofs.Schedule.Renumbering
import AgentFlow.Proofs.Schedule.Redrawing
import AgentFlow.Proofs.Schedule.Writing
import AgentFlow.Proofs.Schedule.Restriction
import AgentFlow.Proofs.Digraph.Cycle
import AgentFlow.Proofs.Digraph.Recursion
import AgentFlow.Proofs.Canvas.Cycle
import AgentFlow.Proofs.Canvas.Sorting
import AgentFlow.Proofs.Canvas.Layout
import AgentFlow.Proofs.Canvas.Level
import AgentFlow.Proofs.Canvas.Placing
import AgentFlow.Proofs.Blocks
import AgentFlow.Proofs.Principal.Base32
import AgentFlow.Proofs.Principal.Codec
import AgentFlow.Proofs.Digest.Crc32
import AgentFlow.Proofs.Principal.Slip
import AgentFlow.Proofs.Canvas.Canister
import AgentFlow.Proofs.Run.Readiness
import AgentFlow.Proofs.Run.Snapshot
import AgentFlow.Proofs.Run.Request
import AgentFlow.Proofs.Run.Reopening
import AgentFlow.Proofs.Number.Rounding
import AgentFlow.Proofs.Number.Digits
import AgentFlow.Proofs.Text.Run
import AgentFlow.Proofs.Json.Text
import AgentFlow.Proofs.Json.Number
import AgentFlow.Proofs.Json.RoundTrip
import AgentFlow.Proofs.Json.Finite
import AgentFlow.Proofs.Payload.Record
import AgentFlow.Proofs.Payload.Parts
import AgentFlow.Proofs.Payload.RoundTrip
import AgentFlow.Proofs.Exchange
import AgentFlow.Proofs.Envelope
import AgentFlow.Proofs.Run.Loading
import AgentFlow.Proofs.Run.Storage
import AgentFlow.Proofs.Digest.Sha256
import AgentFlow.Proofs.Json.Alphabet
import AgentFlow.Proofs.Json.Ascii
import AgentFlow.Proofs.Json.Canonical
import AgentFlow.Proofs.Payload.Keys
import AgentFlow.Proofs.Payload.Likeness
import AgentFlow.Proofs.Schedule.Canonical
import AgentFlow.Proofs.Json.Distinct
import AgentFlow.Proofs.Payload.Distinct
import AgentFlow.Proofs.Template.File
import AgentFlow.Proofs.Template.Library
import AgentFlow.Proofs.Template.Run
import AgentFlow.Proofs.Template.Overwriting
import AgentFlow.Proofs.Validation.Verdict
import AgentFlow.Proofs.Run.Picker
import AgentFlow.Proofs.Template.Writing
import AgentFlow.Proofs.Template.Identity
import AgentFlow.Proofs.Payload.Respelling
import AgentFlow.Proofs.Payload.Spelling
import AgentFlow.Proofs.Schedule.Branching
import AgentFlow.Proofs.Text.Lowercase
import AgentFlow.Proofs.Template.Search
import AgentFlow.Proofs.Machine
import AgentFlow.Proofs.Digraph.Table
import AgentFlow.Proofs.Digraph.OrderLoop
import AgentFlow.Proofs.Digraph.CycleLoop
import AgentFlow.Proofs.Digraph.LevelLoop
import AgentFlow.Proofs.Canvas.Loops
