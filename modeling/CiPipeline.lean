import CiPipeline.Calendar
import CiPipeline.Checkout
import CiPipeline.CommandLine.Help
import CiPipeline.CommandLine.Option
import CiPipeline.CommandLine.Request
import CiPipeline.CommandLine.Session
import CiPipeline.CommandLine.Terminal
import CiPipeline.Condition
import CiPipeline.Condition.Error
import CiPipeline.Condition.Parser
import CiPipeline.Condition.Token
import CiPipeline.Console
import CiPipeline.Crash
import CiPipeline.Declaration
import CiPipeline.Document.Fields
import CiPipeline.Document.Issue
import CiPipeline.Document.Pipeline
import CiPipeline.Document.Reading
import CiPipeline.Document.Scalar
import CiPipeline.Document.Schema
import CiPipeline.Error
import CiPipeline.Event
import CiPipeline.Execution
import CiPipeline.Gate
import CiPipeline.Glob
import CiPipeline.Glob.Expression
import CiPipeline.Glob.Match
import CiPipeline.Graph
import CiPipeline.Graph.Build
import CiPipeline.Graph.Countdown
import CiPipeline.Graph.Cycle
import CiPipeline.Graph.Level
import CiPipeline.Graph.Progress
import CiPipeline.Graph.Session
import CiPipeline.Job
import CiPipeline.Job.InstanceId
import CiPipeline.Main
import CiPipeline.Matrix
import CiPipeline.Matrix.Reference
import CiPipeline.Number.Binary64
import CiPipeline.Number.Numeral
import CiPipeline.Number.Shortest
import CiPipeline.Outcome
import CiPipeline.Path
import CiPipeline.Plan
import CiPipeline.Proofs.CommandLine.Preview
import CiPipeline.Proofs.CommandLine.Request
import CiPipeline.Proofs.CommandLine.Session
import CiPipeline.Proofs.CommandLine.Setting
import CiPipeline.Proofs.CommandLine.Terminal
import CiPipeline.Proofs.Completion
import CiPipeline.Proofs.Condition.Expression
import CiPipeline.Proofs.Condition.Grammar
import CiPipeline.Proofs.Condition.Layout
import CiPipeline.Proofs.Condition.Status
import CiPipeline.Proofs.Condition.Token
import CiPipeline.Proofs.Console
import CiPipeline.Proofs.Declaration
import CiPipeline.Proofs.Disclosure
import CiPipeline.Proofs.Document.Events
import CiPipeline.Proofs.Document.Meaning
import CiPipeline.Proofs.Document.Reading
import CiPipeline.Proofs.Document.Refusal
import CiPipeline.Proofs.Document.Spelling
import CiPipeline.Proofs.Document.WellFormed
import CiPipeline.Proofs.Except
import CiPipeline.Proofs.Execution
import CiPipeline.Proofs.Execution.Obstacle
import CiPipeline.Proofs.Execution.Output
import CiPipeline.Proofs.Execution.Selected
import CiPipeline.Proofs.Execution.UntilFailure
import CiPipeline.Proofs.Export
import CiPipeline.Proofs.Exposure
import CiPipeline.Proofs.Gate
import CiPipeline.Proofs.Glob.Expression
import CiPipeline.Proofs.Glob.Fault
import CiPipeline.Proofs.Glob.Grammar
import CiPipeline.Proofs.Glob.Language
import CiPipeline.Proofs.Graph.Commutation
import CiPipeline.Proofs.Graph.Countdown
import CiPipeline.Proofs.Graph.Cycle
import CiPipeline.Proofs.Graph.Level
import CiPipeline.Proofs.Graph.Order
import CiPipeline.Proofs.Graph.Overtaken
import CiPipeline.Proofs.Graph.Session
import CiPipeline.Proofs.Graph.Stage
import CiPipeline.Proofs.Graph.Transition
import CiPipeline.Proofs.Graph.WellFormed
import CiPipeline.Proofs.ImplicitSuccess
import CiPipeline.Proofs.Matrix
import CiPipeline.Proofs.Matrix.Layer
import CiPipeline.Proofs.Matrix.Product
import CiPipeline.Proofs.Matrix.Reference
import CiPipeline.Proofs.Number.Numeral
import CiPipeline.Proofs.Number.Rounding
import CiPipeline.Proofs.Number.Shortest
import CiPipeline.Proofs.Number.Text
import CiPipeline.Proofs.Plan
import CiPipeline.Proofs.Redaction
import CiPipeline.Proofs.RefFilter
import CiPipeline.Proofs.Regex
import CiPipeline.Proofs.Report
import CiPipeline.Proofs.Run
import CiPipeline.Proofs.Schedule.Agreement
import CiPipeline.Proofs.Schedule.Blame
import CiPipeline.Proofs.Schedule.Coherent
import CiPipeline.Proofs.Schedule.Course
import CiPipeline.Proofs.Schedule.FailFast
import CiPipeline.Proofs.Schedule.Log
import CiPipeline.Proofs.Schedule.Origin
import CiPipeline.Proofs.Schedule.Path
import CiPipeline.Proofs.Schedule.Record
import CiPipeline.Proofs.Schedule.Reference
import CiPipeline.Proofs.Schedule.StartSafety
import CiPipeline.Proofs.Schedule.Step
import CiPipeline.Proofs.Schedule.Stop
import CiPipeline.Proofs.Schedule.Termination
import CiPipeline.Proofs.Schedule.Unseen
import CiPipeline.Proofs.Schedule.Waiting
import CiPipeline.Proofs.Secret
import CiPipeline.Proofs.Secret.Maximal
import CiPipeline.Proofs.Secret.Piece
import CiPipeline.Proofs.Secret.Protection
import CiPipeline.Proofs.Strictness
import CiPipeline.Proofs.Table
import CiPipeline.Proofs.Text.Encoding
import CiPipeline.Proofs.Text.Occurrence
import CiPipeline.Proofs.Trigger
import CiPipeline.Proofs.Wording
import CiPipeline.RefFilter
import CiPipeline.Regex
import CiPipeline.Report
import CiPipeline.Report.Value
import CiPipeline.Run
import CiPipeline.Schedule
import CiPipeline.Secret
import CiPipeline.Secret.File
import CiPipeline.Secret.Redactor
import CiPipeline.Settings
import CiPipeline.Table
import CiPipeline.Text.Base64
import CiPipeline.Text.Blank
import CiPipeline.Text.Digit
import CiPipeline.Text.Encoding
import CiPipeline.Text.Half
import CiPipeline.Text.Lines
import CiPipeline.Text.Lowercase
import CiPipeline.Text.Order
import CiPipeline.Text.Printable
import CiPipeline.Text.Quoted
import CiPipeline.Text.Substitution
import CiPipeline.Text.Uppercase
import CiPipeline.Text.Utf8
import CiPipeline.Timestamp
import CiPipeline.Trigger
import CiPipeline.Value
import CiPipeline.Value.Json
import CiPipeline.Value.Knot
import CiPipeline.Value.Limit
import CiPipeline.Value.Scatter
import CiPipeline.Workflow
import CiPipeline.Workspace
import CiPipeline.Yaml.Block
import CiPipeline.Yaml.Composition
import CiPipeline.Yaml.Document
import CiPipeline.Yaml.Fault
import CiPipeline.Yaml.Merge
import CiPipeline.Yaml.Moment
import CiPipeline.Yaml.Node
import CiPipeline.Yaml.Numeral
import CiPipeline.Yaml.Piece
import CiPipeline.Yaml.Property
import CiPipeline.Yaml.Reader
import CiPipeline.Yaml.Scalar
import CiPipeline.Yaml.Tag
import CiPipeline.Yaml.Token
