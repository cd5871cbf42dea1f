import LanguageSessions.Client.Basic
import LanguageSessions.Client.Binding
import LanguageSessions.Client.Document
import LanguageSessions.Client.Inbound
import LanguageSessions.Client.Operation
import LanguageSessions.Client.Query
import LanguageSessions.Client.Request
import LanguageSessions.Client.Script
import LanguageSessions.Client.Start
import LanguageSessions.Client.Stop
import LanguageSessions.Console.Markup
import LanguageSessions.Console.Table
import LanguageSessions.Console.Wrap
import LanguageSessions.Diagnostic.Basic
import LanguageSessions.Diagnostic.Counts
import LanguageSessions.Diagnostic.Report
import LanguageSessions.Diagnostic.Store
import LanguageSessions.Diagnostic.Visibility
import LanguageSessions.Engine
import LanguageSessions.Entries
import LanguageSessions.Fault
import LanguageSessions.Frame
import LanguageSessions.Hover
import LanguageSessions.Json.Basic
import LanguageSessions.Json.Fields
import LanguageSessions.Json.Parser
import LanguageSessions.Json.Printer
import LanguageSessions.Language
import LanguageSessions.Language.Project
import LanguageSessions.Layer
import LanguageSessions.Layer.Local
import LanguageSessions.Layer.Script
import LanguageSessions.Layer.Scripted
import LanguageSessions.Location
import LanguageSessions.Log
import LanguageSessions.Message
import LanguageSessions.Number.Binary64
import LanguageSessions.Number.FloatText
import LanguageSessions.Number.Numeral
import LanguageSessions.Number.Shortest
import LanguageSessions.Path
import LanguageSessions.Pending
import LanguageSessions.Proofs.Client.Attempt
import LanguageSessions.Proofs.Client.Calm
import LanguageSessions.Proofs.Client.Messages
import LanguageSessions.Proofs.Client.Operation
import LanguageSessions.Proofs.Client.Start
import LanguageSessions.Proofs.Client.Stop
import LanguageSessions.Proofs.Engine.Heard
import LanguageSessions.Proofs.Engine.Joins
import LanguageSessions.Proofs.Engine.OneSession
import LanguageSessions.Proofs.Engine.Runs
import LanguageSessions.Proofs.Engine.Sound
import LanguageSessions.Proofs.Engine.Tickets
import LanguageSessions.Proofs.Entries
import LanguageSessions.Proofs.Frame.Blocks
import LanguageSessions.Proofs.Frame.Chunks
import LanguageSessions.Proofs.Number.Numeral
import LanguageSessions.Proofs.Pending.Consistent
import LanguageSessions.Proofs.Pending.Operations
import LanguageSessions.Proofs.Pending.Runs
import LanguageSessions.Proofs.Session.Registry
import LanguageSessions.Proofs.Text.Utf8
import LanguageSessions.Routes.Basic
import LanguageSessions.Routes.Lookup
import LanguageSessions.Session.Basic
import LanguageSessions.Session.Registry
import LanguageSessions.Settings.Basic
import LanguageSessions.Settings.File
import LanguageSessions.Severity
import LanguageSessions.Snapshot
import LanguageSessions.Status
import LanguageSessions.Status.Report
import LanguageSessions.Subscribers
import LanguageSessions.Text.Blank
import LanguageSessions.Text.Digit
import LanguageSessions.Text.Printable
import LanguageSessions.Text.Quoted
import LanguageSessions.Text.Utf8
import LanguageSessions.Uri
import LanguageSessions.Yaml.Basic
import LanguageSessions.Yaml.Block
import LanguageSessions.Yaml.Node
import LanguageSessions.Yaml.Plain
import LanguageSessions.Yaml.Printer
import LanguageSessions.Yaml.Quoted
import LanguageSessions.Yaml.Scalar
import LanguageSessions.Yaml.Token
import LanguageSessions.Yaml.Value
import LanguageSessions.Proofs.Diagnostic.Counts
import LanguageSessions.Proofs.Diagnostic.Runs
import LanguageSessions.Proofs.Client.Hearing
import LanguageSessions.Proofs.Number.Rounding
import LanguageSessions.Proofs.Number.Shortest
import LanguageSessions.Proofs.Number.Spelling
import LanguageSessions.Proofs.Json.Numbers
import LanguageSessions.Proofs.Json.Strings
import LanguageSessions.Proofs.Json.RoundTrip
import LanguageSessions.Proofs.Message.Wire
import LanguageSessions.Proofs.Client.Documents
import LanguageSessions.Proofs.Engine.Documents
import LanguageSessions.Proofs.Client.Letters
import LanguageSessions.Proofs.Pending.Moves
import LanguageSessions.Proofs.Client.Deeds
import LanguageSessions.Proofs.Client.Steps
import LanguageSessions.Proofs.Client.Servings
import LanguageSessions.Proofs.Client.Greetings
import LanguageSessions.Proofs.Client.Farewells
import LanguageSessions.Proofs.Engine.Course
import LanguageSessions.Proofs.Engine.Lifecycle
import LanguageSessions.Proofs.Client.Statuses
import LanguageSessions.Proofs.Engine.Statuses
import LanguageSessions.Proofs.Engine.Closing
import LanguageSessions.Proofs.Client.Scenes
import LanguageSessions.Proofs.Client.Staging
import LanguageSessions.Proofs.Client.Errands
import LanguageSessions.Proofs.Engine.Scenes
import LanguageSessions.Proofs.Client.AtOnce
import LanguageSessions.Proofs.Client.Discipline
import LanguageSessions.Proofs.Engine.Routes
import LanguageSessions.Proofs.Engine.Owners
import LanguageSessions.Proofs.Engine.Discipline
import LanguageSessions.Proofs.Uri
import LanguageSessions.Proofs.Client.Diagnostics
import LanguageSessions.Proofs.Routes.History
import LanguageSessions.Proofs.Path
import LanguageSessions.Proofs.Routes.Lookup
import LanguageSessions.Proofs.Engine.Teardown
import LanguageSessions.Proofs.Json.LongIntegers
import LanguageSessions.Proofs.Client.Intake
import LanguageSessions.Proofs.Location
import LanguageSessions.Proofs.Pending.Tended
import LanguageSessions.Proofs.Client.Queries
import LanguageSessions.Proofs.Engine.Queries
import LanguageSessions.Proofs.Engine.Requests
import LanguageSessions.Proofs.Client.Failures
import LanguageSessions.Proofs.Engine.Conduct
import LanguageSessions.Proofs.Engine.Failures
import LanguageSessions.Proofs.Engine.Ahead
import LanguageSessions.Proofs.Engine.FailedStarts
import LanguageSessions.Proofs.Diagnostic.Malformed
import LanguageSessions.Proofs.Subscribers
import LanguageSessions.Proofs.Yaml.Scalars
import LanguageSessions.Proofs.Yaml.Lines
import LanguageSessions.Proofs.Yaml.Mapping
import LanguageSessions.Proofs.Yaml.Floats
import LanguageSessions.Proofs.Settings.File
import LanguageSessions.Proofs.Client.Yields
import LanguageSessions.Proofs.Engine.Starts
import LanguageSessions.Proofs.Engine.Readiness
import LanguageSessions.Proofs.Engine.Roots
import LanguageSessions.Proofs.Client.Stoppings
import LanguageSessions.Proofs.Client.Stakes
import LanguageSessions.Proofs.Engine.Stoppings
import LanguageSessions.Proofs.Readings
import LanguageSessions.Proofs.Diagnostic.Identifiers
import LanguageSessions.Proofs.Location.Definition
import LanguageSessions.Proofs.Console.Markup
import LanguageSessions.Proofs.Console.Escape
import LanguageSessions.Proofs.Console.Wrap
import LanguageSessions.Proofs.Console.Table
import LanguageSessions.Proofs.Diagnostic.Report
import LanguageSessions.Proofs.Status.Report
import LanguageSessions.Proofs.Hover
