import BuildStream.Binary64
import BuildStream.Binary64.Shortest
import BuildStream.Calendar
import BuildStream.Command
import BuildStream.Command.Asked
import BuildStream.Command.Completions
import BuildStream.Command.Result
import BuildStream.Command.Run
import BuildStream.Command.Tasks
import BuildStream.CommandLine
import BuildStream.CommandLine.Help
import BuildStream.CommandLine.Level
import BuildStream.CommandLine.Reader
import BuildStream.Completion
import BuildStream.Config
import BuildStream.Config.Decode
import BuildStream.Config.Encode
import BuildStream.Config.Load
import BuildStream.Config.Template
import BuildStream.Config.Validation
import BuildStream.Console
import BuildStream.Console.Progress
import BuildStream.Decode
import BuildStream.Descriptor
import BuildStream.Distinct
import BuildStream.Engine
import BuildStream.Event
import BuildStream.Execution
import BuildStream.Failure
import BuildStream.Files
import BuildStream.Files.Path
import BuildStream.Forwarding
import BuildStream.Identity
import BuildStream.IdleTimeout
import BuildStream.Json
import BuildStream.Json.Dialect
import BuildStream.Json.Number
import BuildStream.Json.Reader
import BuildStream.Json.Token
import BuildStream.Json.Writer
import BuildStream.Launchable
import BuildStream.Launchable.Wire
import BuildStream.Listener
import BuildStream.Main
import BuildStream.Plan
import BuildStream.Plan.Closure
import BuildStream.Plan.Error
import BuildStream.Plan.Order
import BuildStream.Proofs.Brackets
import BuildStream.Proofs.Dependencies
import BuildStream.Proofs.Distinct
import BuildStream.Proofs.Engine.Delivery
import BuildStream.Proofs.Engine.Trace
import BuildStream.Proofs.Outcome
import BuildStream.Proofs.Plan.Closure
import BuildStream.Proofs.Plan.Errors
import BuildStream.Proofs.Plan.Layout
import BuildStream.Proofs.Plan.Order
import BuildStream.Proofs.Plan.Verdicts
import BuildStream.Proofs.Plan.Waves
import BuildStream.Proofs.Schedule.Ending
import BuildStream.Proofs.Schedule.Reports
import BuildStream.Proofs.Schedule.Step
import BuildStream.Proofs.Schedule.Trace
import BuildStream.Proofs.Script
import BuildStream.Proofs.Stamps
import BuildStream.Proofs.Stream
import BuildStream.Request
import BuildStream.Result
import BuildStream.Schedule
import BuildStream.Schedule.Drive
import BuildStream.Schedule.Report
import BuildStream.Schedule.Script
import BuildStream.Seconds
import BuildStream.Session
import BuildStream.Stream
import BuildStream.Stream.Delivery
import BuildStream.Task
import BuildStream.Task.Configured
import BuildStream.Task.Launchables
import BuildStream.TaskPath
import BuildStream.Text.Blank
import BuildStream.Text.Quoted
import BuildStream.Timestamp
import BuildStream.Timestamp.Text
import BuildStream.Toml
import BuildStream.Toml.Document
import BuildStream.Toml.Number
import BuildStream.Toml.Reader
import BuildStream.Toml.Text
import BuildStream.Trace
import BuildStream.Wire.Decode
import BuildStream.Wire.Encode
import BuildStream.Yaml
import BuildStream.Yaml.Reader
import BuildStream.Yaml.Text
import BuildStream.Yaml.Token
import BuildStream.Proofs.Stream.History
import BuildStream.Proofs.Schedule.Waves
import BuildStream.Proofs.Schedule.Hooks
import BuildStream.Proofs.Schedule.Starts
import BuildStream.Proofs.Schedule.Cancellation
import BuildStream.Proofs.Engine.Cancellation
import BuildStream.Proofs.Schedule.Failures
import BuildStream.Proofs.Engine.Finish
import BuildStream.Proofs.Engine.Summary
import BuildStream.Proofs.Stream.Routing
import BuildStream.Proofs.Stream.Isolation
import BuildStream.Proofs.Forwarding
import BuildStream.Proofs.Session
import BuildStream.Proofs.TaskPath
import BuildStream.Proofs.Config.Validation
import BuildStream.Proofs.Config.FirstViolation
import BuildStream.Proofs.Config.Planning
import BuildStream.Proofs.Completion
import BuildStream.Proofs.Plan.Request
import BuildStream.Proofs.Stream.Listening
import BuildStream.Proofs.Stream.Telling
import BuildStream.Proofs.Stream.Ancestors
import BuildStream.Proofs.Stream.Status
import BuildStream.Proofs.Engine.Subjects
import BuildStream.Proofs.Engine.Ancestors
import BuildStream.Proofs.Engine.Running
import BuildStream.Proofs.Engine.Status
import BuildStream.Proofs.Launchable
import BuildStream.Proofs.Request
import BuildStream.Proofs.Identity
import BuildStream.Proofs.Engine.Identity
import BuildStream.Proofs.Engine.Reporting
import BuildStream.Proofs.Json.Loosened
import BuildStream.Proofs.Wire
import BuildStream.Proofs.Plan.Targets
import BuildStream.Proofs.Plan.Launchables
import BuildStream.Proofs.Stream.Parents
import BuildStream.Proofs.Schedule.Uncancelled
import BuildStream.Proofs.Engine.Conclusion
import BuildStream.Proofs.Command.Run
import BuildStream.Proofs.Failure
import BuildStream.Proofs.Engine.Agreement
import BuildStream.Proofs.Stream.Draining
import BuildStream.Proofs.Stream.Matching
import BuildStream.Proofs.Configured
import BuildStream.Proofs.Engine.Configured
import BuildStream.Proofs.Separated
import BuildStream.Proofs.Selector
import BuildStream.Proofs.Files.Path
import BuildStream.Proofs.Config.Search
import BuildStream.Proofs.Json.Abridged
import BuildStream.Proofs.Config.RoundTrip
import BuildStream.Proofs.Plan.Sorting
import BuildStream.Proofs.Plan.Iterations
