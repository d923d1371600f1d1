import LogWatch.Alert.Dispatcher
import LogWatch.Alert.Notification
import LogWatch.Alert.Webhook
import LogWatch.Anomaly.Calibration
import LogWatch.Anomaly.Choices
import LogWatch.Anomaly.Forest
import LogWatch.Anomaly.Scorer
import LogWatch.Dictionary
import LogWatch.Engine.Basic
import LogWatch.Engine.Control
import LogWatch.Engine.Detection
import LogWatch.Engine.Queue
import LogWatch.Engine.Scoring
import LogWatch.Engine.Sink
import LogWatch.Event.Basic
import LogWatch.Event.Codec
import LogWatch.Event.Level
import LogWatch.Field.Aliases
import LogWatch.Field.Value
import LogWatch.Files.Path
import LogWatch.Files.Tree
import LogWatch.Intake.Grok
import LogWatch.Intake.Normalizer
import LogWatch.Json.Basic
import LogWatch.Json.Fields
import LogWatch.Json.Reader
import LogWatch.Json.Words
import LogWatch.Json.Writer
import LogWatch.Main
import LogWatch.Net.Address
import LogWatch.Number.Binary
import LogWatch.Number.Decimal
import LogWatch.Number.Reading
import LogWatch.Proofs.Alert.References
import LogWatch.Proofs.Condition.Alternatives
import LogWatch.Proofs.Condition.Grammar
import LogWatch.Proofs.Condition.Parts
import LogWatch.Proofs.Condition.Tokens
import LogWatch.Proofs.Detection.Deliveries
import LogWatch.Proofs.Detection.Runs
import LogWatch.Proofs.Detection.Stages
import LogWatch.Proofs.Dictionary
import LogWatch.Proofs.Files.Listings
import LogWatch.Proofs.Files.Paths
import LogWatch.Proofs.Intake.Groups
import LogWatch.Proofs.Intake.References
import LogWatch.Proofs.Intake.Unfolding
import LogWatch.Proofs.Json.Stored
import LogWatch.Proofs.Net.Addresses
import LogWatch.Proofs.Number.Doubles
import LogWatch.Proofs.Number.Rounding
import LogWatch.Proofs.Outcome
import LogWatch.Proofs.Pattern.Blanks
import LogWatch.Proofs.Pattern.Expressions
import LogWatch.Proofs.Pattern.NormalForm
import LogWatch.Proofs.Pattern.Numbers
import LogWatch.Proofs.Pattern.Recognition
import LogWatch.Proofs.Pattern.Rewriting
import LogWatch.Proofs.Regex.Meaning
import LogWatch.Proofs.Report.Batches
import LogWatch.Proofs.Report.Boundaries
import LogWatch.Proofs.Report.Charges
import LogWatch.Proofs.Report.Conversations
import LogWatch.Proofs.Report.Counts
import LogWatch.Proofs.Report.PairLabels
import LogWatch.Proofs.Report.ReversedRanges
import LogWatch.Proofs.Report.Tallies
import LogWatch.Proofs.Report.Timelines
import LogWatch.Proofs.Report.Traffic
import LogWatch.Proofs.Report.Visits
import LogWatch.Proofs.Rule.Demands
import LogWatch.Proofs.Rule.Distances
import LogWatch.Proofs.Rule.Edits
import LogWatch.Proofs.Rule.Evaluation
import LogWatch.Proofs.Rule.Folders
import LogWatch.Proofs.Rule.Loading
import LogWatch.Proofs.Rule.Reading
import LogWatch.Proofs.Rule.Reloading
import LogWatch.Proofs.Rule.Repetitions
import LogWatch.Proofs.Rule.Sharing
import LogWatch.Proofs.Rule.Suggestions
import LogWatch.Proofs.Rule.Unused
import LogWatch.Proofs.Rule.Validation
import LogWatch.Proofs.Rule.Wildcards
import LogWatch.Proofs.Scoring.Delays
import LogWatch.Proofs.Scoring.ExactCalibration
import LogWatch.Proofs.Scoring.Forgetting
import LogWatch.Proofs.Scoring.Loading
import LogWatch.Proofs.Scoring.Observation
import LogWatch.Proofs.Scoring.Pipeline
import LogWatch.Proofs.Scoring.Restart
import LogWatch.Proofs.Scoring.Splits
import LogWatch.Proofs.Scoring.Widths
import LogWatch.Proofs.Scoring.WindowStarts
import LogWatch.Proofs.Text.Utf8
import LogWatch.Record.Basic
import LogWatch.Record.Codec
import LogWatch.Record.Source
import LogWatch.Regex.Basic
import LogWatch.Regex.CharSet
import LogWatch.Regex.Parser
import LogWatch.Regex.Program
import LogWatch.Regex.Search
import LogWatch.Report.Flow
import LogWatch.Report.Frequency
import LogWatch.Report.Pattern
import LogWatch.Report.Service
import LogWatch.Report.Store
import LogWatch.Report.Summary
import LogWatch.Report.Tally
import LogWatch.Report.Window
import LogWatch.Rule.Basic
import LogWatch.Rule.Condition
import LogWatch.Rule.Corpus
import LogWatch.Rule.Document
import LogWatch.Rule.Glob
import LogWatch.Rule.Matcher
import LogWatch.Rule.Repository
import LogWatch.Rule.Selection
import LogWatch.Rule.Suggestion
import LogWatch.Rule.Validation
import LogWatch.Settings
import LogWatch.Settings.EnvironmentFile
import LogWatch.Template.Render
import LogWatch.Template.Syntax
import LogWatch.Template.Token
import LogWatch.Template.Value
import LogWatch.Text.Basic
import LogWatch.Text.Quoted
import LogWatch.Text.Unicode.AlphabeticRuns
import LogWatch.Text.Unicode.Case
import LogWatch.Text.Unicode.CaseRuns
import LogWatch.Text.Unicode.CategoryRuns
import LogWatch.Text.Unicode.Properties
import LogWatch.Text.Utf8
import LogWatch.Time.Instant
import LogWatch.Time.Timestamp
import LogWatch.Worker.Arguments
import LogWatch.Worker.Basic
import LogWatch.Yaml.Basic
import LogWatch.Yaml.Node
import LogWatch.Yaml.Place
import LogWatch.Yaml.Scalar
import LogWatch.Yaml.Schema
import LogWatch.Yaml.Token
import LogWatch.Yaml.Typed
