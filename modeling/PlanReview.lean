import PlanReview.Artifact.Markdown
import PlanReview.Artifact.Slug
import PlanReview.Artifact.Store
import PlanReview.Chat.Client
import PlanReview.Chat.Endpoint
import PlanReview.Chat.Model
import PlanReview.Chat.Offline
import PlanReview.CommandLine.Command
import PlanReview.CommandLine.Execute
import PlanReview.CommandLine.Input
import PlanReview.CommandLine.Options
import PlanReview.Decimal.Binary
import PlanReview.Decimal.Nearest
import PlanReview.Decimal.Notation
import PlanReview.Decimal.Numeral
import PlanReview.Decimal.Shortest
import PlanReview.Failure
import PlanReview.Files.Path
import PlanReview.Files.Tree
import PlanReview.Graph.Cycle
import PlanReview.Graph.Level
import PlanReview.Graph.Lookup
import PlanReview.Graph.Metrics
import PlanReview.Graph.Reach
import PlanReview.Guardrail.Condition
import PlanReview.Guardrail.Glob
import PlanReview.Guardrail.Limits
import PlanReview.Json.Encoding
import PlanReview.Json.Literal
import PlanReview.Json.Reader
import PlanReview.Json.Value
import PlanReview.Json.Writer
import PlanReview.Loop.Basic
import PlanReview.Loop.Iteration
import PlanReview.Loop.Rounds
import PlanReview.Loop.Setup
import PlanReview.Main
import PlanReview.Phase.Basic
import PlanReview.Phase.Chat
import PlanReview.Phase.Prompt
import PlanReview.Phase.Script
import PlanReview.Plan.Basic
import PlanReview.Plan.Decode
import PlanReview.Plan.Encode
import PlanReview.Plan.Reference
import PlanReview.Redact
import PlanReview.Reply.Repair
import PlanReview.Review.Basic
import PlanReview.Review.Checklist
import PlanReview.Schema.Checked
import PlanReview.Schema.Decoder
import PlanReview.Schema.Issue
import PlanReview.Session.HardStop
import PlanReview.Session.Lock
import PlanReview.Session.Overview
import PlanReview.Session.State
import PlanReview.Session.Store
import PlanReview.Session.Timing
import PlanReview.Session.Usage
import PlanReview.Settings.Basic
import PlanReview.Settings.Environment
import PlanReview.Settings.File
import PlanReview.Settings.Recipe
import PlanReview.Text.CaseRanges
import PlanReview.Text.CharClass
import PlanReview.Text.Lines
import PlanReview.Text.LowerCase
import PlanReview.Text.Quoted
import PlanReview.Text.Search
import PlanReview.Text.UnprintableRanges
import PlanReview.Text.Utf8
import PlanReview.Text.WordRanges
import PlanReview.Time.Instant
import PlanReview.Time.Iso
import PlanReview.Viability.Finding
import PlanReview.Viability.Rules
import PlanReview.Viability.Verdict
import PlanReview.Web.Service
import PlanReview.Web.Target
import PlanReview.Workspace.Basic
import PlanReview.Workspace.Locks
import PlanReview.Yaml.Reader
import PlanReview.Yaml.Scalar
import PlanReview.Yaml.Value
import PlanReview.Proofs.Graph.Acyclic
import PlanReview.Proofs.Graph.Levels
import PlanReview.Proofs.Graph.LongestChain
import PlanReview.Proofs.Graph.Width
import PlanReview.Proofs.Graph.Reachable
import PlanReview.Proofs.Reference.Scan
import PlanReview.Proofs.Viability.Acceptance
import PlanReview.Proofs.Viability.Grounding
import PlanReview.Proofs.Viability.Order
import PlanReview.Proofs.Decimal.Double
import PlanReview.Proofs.Decimal.Shortest
import PlanReview.Proofs.Json.Bytes
import PlanReview.Proofs.Json.Number
import PlanReview.Proofs.Json.RoundTrip
import PlanReview.Proofs.Schema.Laws
import PlanReview.Proofs.Json.Kept
import PlanReview.Proofs.Plan.ReadBack
import PlanReview.Proofs.Session.ReadBack
import PlanReview.Proofs.Files.Change
import PlanReview.Proofs.Files.Name
import PlanReview.Proofs.Workspace.Outcome
import PlanReview.Proofs.Workspace.Stores
import PlanReview.Proofs.Artifact.Files
import PlanReview.Proofs.Session.Steps
import PlanReview.Proofs.Session.Saving
import PlanReview.Proofs.Session.Frame
import PlanReview.Proofs.Session.History
import PlanReview.Proofs.Loop.Saves
import PlanReview.Proofs.Session.Ledger
import PlanReview.Proofs.Session.Documents
import PlanReview.Proofs.Loop.Ending
import PlanReview.Proofs.Loop.Approval
import PlanReview.Proofs.Decimal.Order
import PlanReview.Proofs.Review.ReadBack
import PlanReview.Proofs.Loop.Frame
import PlanReview.Proofs.Workspace.OnFiles
import PlanReview.Proofs.Session.Locking
import PlanReview.Proofs.Session.Exclusion
import PlanReview.Proofs.Loop.Rerun
import PlanReview.Proofs.Loop.Turn
import PlanReview.Proofs.Loop.Bounds
import PlanReview.Proofs.Loop.Moves
import PlanReview.Proofs.Loop.Following
import PlanReview.Proofs.Loop.Visits
import PlanReview.Proofs.Loop.Records
import PlanReview.Proofs.Loop.Books
import PlanReview.Proofs.Loop.Growth
import PlanReview.Proofs.Loop.Reviews
import PlanReview.Proofs.Loop.Gate
import PlanReview.Proofs.Loop.Calls
import PlanReview.Proofs.Loop.Answers
import PlanReview.Proofs.Loop.Waiting
import PlanReview.Proofs.Loop.Feedback
import PlanReview.Proofs.Loop.Best
import PlanReview.Proofs.Loop.BestEffort
import PlanReview.Proofs.Session.Overview
import PlanReview.Proofs.Session.Visibility
import PlanReview.Proofs.Loop.Status
import PlanReview.Proofs.Loop.Verdicts
import PlanReview.Proofs.Loop.Unwritten
import PlanReview.Proofs.Workspace.Throughout
import PlanReview.Proofs.Loop.Documented
import PlanReview.Proofs.Schema.Accepted
import PlanReview.Proofs.Schema.Rewritten
import PlanReview.Proofs.Loop.Reload
import PlanReview.Proofs.Loop.Untouched
import PlanReview.Proofs.Loop.Resumed
import PlanReview.Proofs.Chat.Replies
import PlanReview.Proofs.Loop.Atomicity
import PlanReview.Proofs.Text.Delimiter
import PlanReview.Proofs.Json.Scalar
import PlanReview.Proofs.Json.StringBody
import PlanReview.Proofs.Json.Grammar
import PlanReview.Proofs.Reply.Block
import PlanReview.Proofs.Reply.Commas
import PlanReview.Proofs.Reply.Fences
import PlanReview.Proofs.Reply.Salvage
import PlanReview.Proofs.Reference.Params
import PlanReview.Proofs.Reference.Search
import PlanReview.Proofs.Viability.References
import PlanReview.Proofs.Redact.Passes
import PlanReview.Proofs.Guardrail.SensitiveFiles
import PlanReview.Proofs.Loop.Told
import PlanReview.Proofs.CommandLine.Options
import PlanReview.Proofs.CommandLine.Resume
import PlanReview.Proofs.Settings.Layers
import PlanReview.Proofs.Settings.Variables
import PlanReview.Proofs.CommandLine.Precedence
import PlanReview.Proofs.Artifact.Slug
import PlanReview.Proofs.Loop.Versions
import PlanReview.Proofs.Chat.Offline
import PlanReview.Proofs.Redact.Places
import PlanReview.Proofs.Redact.Survival
import PlanReview.Proofs.Chat.Failures
