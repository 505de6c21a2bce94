import Runbook.Arguments
import Runbook.Condition.Evaluation
import Runbook.Condition.Token
import Runbook.Digest
import Runbook.Entries
import Runbook.Expression
import Runbook.Fault
import Runbook.FileData
import Runbook.FileTree
import Runbook.Generation
import Runbook.Glob
import Runbook.Handover
import Runbook.History
import Runbook.History.Document
import Runbook.Host.Shell
import Runbook.Http.Client
import Runbook.Http.Message
import Runbook.Interaction
import Runbook.Interaction.Console
import Runbook.Interaction.Queue
import Runbook.Invocation
import Runbook.Json.Bytes
import Runbook.Json.Reader
import Runbook.Json.Writer
import Runbook.Kind
import Runbook.Listing
import Runbook.Literal
import Runbook.Main
import Runbook.Mime
import Runbook.Notes
import Runbook.Number.Binary64
import Runbook.Number.Numeral
import Runbook.Number.Shortest
import Runbook.Path
import Runbook.Proofs.Action
import Runbook.Proofs.Condition.Comparison
import Runbook.Proofs.Condition.Composition
import Runbook.Proofs.Condition.Derivation
import Runbook.Proofs.Condition.Evaluation
import Runbook.Proofs.Condition.Grammar
import Runbook.Proofs.Condition.Membership
import Runbook.Proofs.Condition.Ordering
import Runbook.Proofs.Entries
import Runbook.Proofs.Expression
import Runbook.Proofs.Expression.Operation
import Runbook.Proofs.Expression.Rendered
import Runbook.Proofs.FileData
import Runbook.Proofs.FileTree
import Runbook.Proofs.History.Document
import Runbook.Proofs.History.Folder
import Runbook.Proofs.History.Refinement
import Runbook.Proofs.History.Saving
import Runbook.Proofs.History.Store
import Runbook.Proofs.Http.Fields
import Runbook.Proofs.Http.Normal
import Runbook.Proofs.Interaction.Console
import Runbook.Proofs.Interaction.Schedule
import Runbook.Proofs.Json.Front
import Runbook.Proofs.Json.Nesting
import Runbook.Proofs.Json.Numeral
import Runbook.Proofs.Json.Reading
import Runbook.Proofs.Json.Roundtrip
import Runbook.Proofs.Json.Unfinished
import Runbook.Proofs.Json.Weight
import Runbook.Proofs.Json.Writing
import Runbook.Proofs.Literal
import Runbook.Proofs.Notes
import Runbook.Proofs.Number.Numeral
import Runbook.Proofs.Number.Rounding
import Runbook.Proofs.Number.Shortest
import Runbook.Proofs.Number.Whole
import Runbook.Proofs.Number.Written
import Runbook.Proofs.Path
import Runbook.Proofs.Recorder
import Runbook.Proofs.Redaction
import Runbook.Proofs.Redaction.Stability
import Runbook.Proofs.Results
import Runbook.Proofs.Run.Cancellation
import Runbook.Proofs.Run.Conclusion
import Runbook.Proofs.Run.Counting
import Runbook.Proofs.Run.Failure
import Runbook.Proofs.Run.Guards
import Runbook.Proofs.Run.Handover
import Runbook.Proofs.Run.Listening
import Runbook.Proofs.Run.Nesting
import Runbook.Proofs.Run.Order
import Runbook.Proofs.Run.Passing
import Runbook.Proofs.Run.Pointers
import Runbook.Proofs.Run.Steps
import Runbook.Proofs.Run.Trail
import Runbook.Proofs.Run.Variables
import Runbook.Proofs.Scope
import Runbook.Proofs.Tags
import Runbook.Proofs.Template
import Runbook.Proofs.Template.Embedding
import Runbook.Proofs.Template.Names
import Runbook.Proofs.Template.Path
import Runbook.Proofs.Template.Source
import Runbook.Proofs.Template.Written
import Runbook.Proofs.Text.Case
import Runbook.Proofs.Text.Cutting
import Runbook.Proofs.Text.Encoding
import Runbook.Proofs.ToolServer.Conversation
import Runbook.Proofs.ToolServer.Replies
import Runbook.Proofs.ToolServer.Talk
import Runbook.Proofs.Vault
import Runbook.Proofs.Visit.Bytes
import Runbook.Proofs.Visit.Calls
import Runbook.Proofs.Visit.Compute
import Runbook.Proofs.Visit.Consent
import Runbook.Proofs.Visit.Control
import Runbook.Proofs.Visit.Form
import Runbook.Proofs.Visit.Index
import Runbook.Proofs.Visit.Listing
import Runbook.Proofs.Visit.Literal
import Runbook.Proofs.Visit.Note
import Runbook.Proofs.Visit.NoteList
import Runbook.Proofs.Visit.Outcome
import Runbook.Proofs.Visit.Prelude
import Runbook.Proofs.Visit.Request
import Runbook.Proofs.Visit.Search
import Runbook.Proofs.Visit.Selection
import Runbook.Proofs.Walk.Alike
import Runbook.Proofs.Walk.Cancellation
import Runbook.Proofs.Walk.Exit
import Runbook.Proofs.Walk.Failure
import Runbook.Proofs.Walk.Forward
import Runbook.Proofs.Walk.Graph
import Runbook.Proofs.Walk.Isolation
import Runbook.Proofs.Walk.Order
import Runbook.Proofs.Walk.Prefix
import Runbook.Proofs.Walk.Recording
import Runbook.Proofs.Walk.Revisit
import Runbook.Proofs.Walk.Step
import Runbook.Proofs.Walk.Trail
import Runbook.Proofs.Walk.Twins
import Runbook.Proofs.Walk.Visiting
import Runbook.Proofs.Walk.Writes
import Runbook.Proofs.Workflow
import Runbook.Proofs.Workflow.Legible
import Runbook.Proofs.Workflow.Loading
import Runbook.Proofs.Workflow.Saving
import Runbook.Provider
import Runbook.Record
import Runbook.Recorder
import Runbook.Redaction
import Runbook.Rehearsal
import Runbook.Run
import Runbook.Scope
import Runbook.Session
import Runbook.Settings
import Runbook.Tags
import Runbook.Template
import Runbook.Text.Base64
import Runbook.Text.Blank
import Runbook.Text.Case
import Runbook.Text.Digit
import Runbook.Text.Lines
import Runbook.Text.Printable
import Runbook.Text.Quoted
import Runbook.Text.Search
import Runbook.Text.Utf8
import Runbook.Text.Word
import Runbook.ToolServer
import Runbook.Url
import Runbook.Value
import Runbook.Vault
import Runbook.Visit.Ask
import Runbook.Visit.Context
import Runbook.Visit.Control
import Runbook.Visit.Dispatch
import Runbook.Visit.File
import Runbook.Visit.Host
import Runbook.Visit.Nested
import Runbook.Visit.Note
import Runbook.Visit.NoteList
import Runbook.Visit.Prompt
import Runbook.Visit.Request
import Runbook.Visit.Tool
import Runbook.Workflow
import Runbook.Workflow.File
import Runbook.Workflow.Loading
import Runbook.Workstation
import Runbook.Yaml.Cursor
import Runbook.Yaml.Document
import Runbook.Yaml.Mark
import Runbook.Yaml.Node
import Runbook.Yaml.Outline
import Runbook.Yaml.Page
import Runbook.Yaml.Quoting
import Runbook.Yaml.Scalar
import Runbook.Yaml.Token
