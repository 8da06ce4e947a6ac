import Runbook.CommandLine.Help
import Runbook.CommandLine.Invocation
import Runbook.CommandLine.Parameter
import Runbook.CommandLine.Reading
import Runbook.Dependency
import Runbook.Error
import Runbook.Execution.Agenda
import Runbook.Execution.Command
import Runbook.Execution.Crew
import Runbook.Execution.Rehearsal
import Runbook.Execution.Run
import Runbook.Execution.Schedule
import Runbook.Execution.Settings
import Runbook.Execution.Worker
import Runbook.Execution.World
import Runbook.Files.Error
import Runbook.Files.Path
import Runbook.Files.Tree
import Runbook.Journal.Audit
import Runbook.Journal.Basic
import Runbook.Json.Record
import Runbook.Json.Text
import Runbook.Json.Token
import Runbook.Json.Value
import Runbook.Main
import Runbook.Markdown.Checkbox
import Runbook.Markdown.CodeSpan
import Runbook.Markdown.Cursor
import Runbook.Markdown.Field
import Runbook.Markdown.Outline
import Runbook.Plan.Basic
import Runbook.Plan.Extend
import Runbook.Plan.Library
import Runbook.Plan.Marks
import Runbook.Plan.Name
import Runbook.Plan.Parser
import Runbook.Plan.Printer
import Runbook.Plan.TaskSpec
import Runbook.Plan.Template
import Runbook.Proofs.Account
import Runbook.Proofs.AppendedGroup
import Runbook.Proofs.AuditFile
import Runbook.Proofs.Boxes
import Runbook.Proofs.Calendar
import Runbook.Proofs.CallsInFlight
import Runbook.Proofs.Chain
import Runbook.Proofs.CodeQuotes
import Runbook.Proofs.Commands
import Runbook.Proofs.Containment
import Runbook.Proofs.CrewOrder
import Runbook.Proofs.CursorPass
import Runbook.Proofs.Cycle
import Runbook.Proofs.CyclePath
import Runbook.Proofs.Document
import Runbook.Proofs.Execution
import Runbook.Proofs.FailedWrites
import Runbook.Proofs.FencePairs
import Runbook.Proofs.FieldRewrites
import Runbook.Proofs.Fields
import Runbook.Proofs.FileTree
import Runbook.Proofs.Grammar
import Runbook.Proofs.GroupAddition
import Runbook.Proofs.GroupLines
import Runbook.Proofs.GroupNames
import Runbook.Proofs.GroupReading
import Runbook.Proofs.Insertion
import Runbook.Proofs.Interleaving
import Runbook.Proofs.Job
import Runbook.Proofs.JsonText
import Runbook.Proofs.Ledger
import Runbook.Proofs.LineEdits
import Runbook.Proofs.LineFronts
import Runbook.Proofs.Lines
import Runbook.Proofs.Numerals
import Runbook.Proofs.Occurrences
import Runbook.Proofs.Order
import Runbook.Proofs.Outcome
import Runbook.Proofs.Outline
import Runbook.Proofs.OutlineIndex
import Runbook.Proofs.ParsedGroups
import Runbook.Proofs.PlanAfterRun
import Runbook.Proofs.PlanCreation
import Runbook.Proofs.PlanFile
import Runbook.Proofs.PlanListing
import Runbook.Proofs.PlanMarks
import Runbook.Proofs.PlanTitle
import Runbook.Proofs.Presentation
import Runbook.Proofs.ReadyGroups
import Runbook.Proofs.Records
import Runbook.Proofs.Retries
import Runbook.Proofs.RoundTrip
import Runbook.Proofs.Rows
import Runbook.Proofs.RunReport
import Runbook.Proofs.SecondRun
import Runbook.Proofs.SerialRun
import Runbook.Proofs.Slug
import Runbook.Proofs.StatusLine
import Runbook.Proofs.StatusRoom
import Runbook.Proofs.StatusWord
import Runbook.Proofs.SteadyHost
import Runbook.Proofs.StepTicks
import Runbook.Proofs.TaskBlocks
import Runbook.Proofs.TaskIdentity
import Runbook.Proofs.TaskRows
import Runbook.Proofs.TaskSection
import Runbook.Proofs.TickedPlan
import Runbook.Proofs.Timestamps
import Runbook.Proofs.TrimmedText
import Runbook.Proofs.VerbatimText
import Runbook.Proofs.VerifyCommand
import Runbook.Proofs.Worker
import Runbook.Proofs.WritableGroups
import Runbook.Record
import Runbook.Session
import Runbook.Settings
import Runbook.Shell.Arithmetic
import Runbook.Shell.Builtin
import Runbook.Shell.ByteSet
import Runbook.Shell.Condition
import Runbook.Shell.Expansion
import Runbook.Shell.FileUtility
import Runbook.Shell.Host
import Runbook.Shell.Machine
import Runbook.Shell.Printing
import Runbook.Shell.Reader
import Runbook.Shell.Run
import Runbook.Shell.Script
import Runbook.Shell.TextUtility
import Runbook.Shell.Token
import Runbook.Status
import Runbook.Task
import Runbook.TaskGroup
import Runbook.Text.Blank
import Runbook.Text.Case
import Runbook.Text.CaseTable
import Runbook.Text.CodeRanges
import Runbook.Text.Digit
import Runbook.Text.Quoted
import Runbook.Text.Split
import Runbook.Text.Unprintable
import Runbook.Text.Utf8
import Runbook.Text.WordChar
import Runbook.Time.Calendar
import Runbook.Time.Instant
import Runbook.Time.Rfc3339
import Runbook.Yaml.Node
import Runbook.Yaml.Reader
import Runbook.Yaml.Scalar
import Runbook.Yaml.Spot
