import HealthRelay.Address
import HealthRelay.Address.Json
import HealthRelay.Agent
import HealthRelay.Binary64
import HealthRelay.Binary64.Shortest
import HealthRelay.Call
import HealthRelay.CommandLine
import HealthRelay.CommandLine.Help
import HealthRelay.Config
import HealthRelay.ConfigError
import HealthRelay.Delivery
import HealthRelay.Duration
import HealthRelay.Duration.Reader
import HealthRelay.Emission
import HealthRelay.Event
import HealthRelay.Failure
import HealthRelay.Handoff
import HealthRelay.HealthCheck
import HealthRelay.Http.Answer
import HealthRelay.Http.Exchange
import HealthRelay.Http.Request
import HealthRelay.Http.Status
import HealthRelay.Http.Uri
import HealthRelay.Identity.Uuid
import HealthRelay.Journal
import HealthRelay.Journal.Line
import HealthRelay.Journal.Stamp
import HealthRelay.Json.Error
import HealthRelay.Json.Lexical
import HealthRelay.Json.Quoted
import HealthRelay.Json.Record
import HealthRelay.Json.Skip
import HealthRelay.Json.Value
import HealthRelay.Json.Writer
import HealthRelay.Mailbox
import HealthRelay.Main
import HealthRelay.OsError
import HealthRelay.Poller
import HealthRelay.Progress
import HealthRelay.Proofs.Address
import HealthRelay.Proofs.Agent.Calls
import HealthRelay.Proofs.Agent.Lives
import HealthRelay.Proofs.Agent.Relaunch
import HealthRelay.Proofs.Agent.Supervision
import HealthRelay.Proofs.Call
import HealthRelay.Proofs.Config.Layers
import HealthRelay.Proofs.Duration
import HealthRelay.Proofs.Emission
import HealthRelay.Proofs.Emission.Honest
import HealthRelay.Proofs.Emission.Trace
import HealthRelay.Proofs.Handoff.Agreement
import HealthRelay.Proofs.Handoff.Closing
import HealthRelay.Proofs.HealthCheck.Body
import HealthRelay.Proofs.HealthCheck.Request
import HealthRelay.Proofs.Http.Endpoint
import HealthRelay.Proofs.Http.Request
import HealthRelay.Proofs.Json.Literal
import HealthRelay.Proofs.Json.Object
import HealthRelay.Proofs.Json.Quoted
import HealthRelay.Proofs.Json.Reader
import HealthRelay.Proofs.Json.Record
import HealthRelay.Proofs.Json.Skip
import HealthRelay.Proofs.Json.Syntax
import HealthRelay.Proofs.Json.Value
import HealthRelay.Proofs.Poller.Count
import HealthRelay.Proofs.Poller.Probe
import HealthRelay.Proofs.Poller.Schedule
import HealthRelay.Proofs.Report
import HealthRelay.Proofs.Scope
import HealthRelay.Proofs.Session.Attempts
import HealthRelay.Proofs.Session.Backlog
import HealthRelay.Proofs.Session.Backpressure
import HealthRelay.Proofs.Session.Deadlines
import HealthRelay.Proofs.Session.Drain
import HealthRelay.Proofs.Session.Freshness
import HealthRelay.Proofs.Session.Life
import HealthRelay.Proofs.Session.Looks
import HealthRelay.Proofs.Session.Notices
import HealthRelay.Proofs.Session.Pace
import HealthRelay.Proofs.Session.Relay
import HealthRelay.Proofs.Session.Rest
import HealthRelay.Proofs.Session.Scopes
import HealthRelay.Proofs.Session.Shutdown
import HealthRelay.Proofs.Session.Tokens
import HealthRelay.Proofs.Session.Verdicts
import HealthRelay.Proofs.Settings
import HealthRelay.Proofs.Text.Blank
import HealthRelay.Proofs.Text.Decimal
import HealthRelay.Proofs.Text.Utf8
import HealthRelay.Proofs.Token
import HealthRelay.Proofs.Toml.Document
import HealthRelay.Proofs.Toml.Text
import HealthRelay.Relay
import HealthRelay.Report
import HealthRelay.Report.Json
import HealthRelay.Reporter
import HealthRelay.Sample
import HealthRelay.Sample.Json
import HealthRelay.Scope
import HealthRelay.Session
import HealthRelay.SessionId
import HealthRelay.Settings
import HealthRelay.Settings.Toml
import HealthRelay.Simulation.AgentRun
import HealthRelay.Simulation.Clock
import HealthRelay.Simulation.Deadlines
import HealthRelay.Simulation.Emissions
import HealthRelay.Simulation.Handoffs
import HealthRelay.Simulation.PollerRun
import HealthRelay.Simulation.RelayRun
import HealthRelay.Simulation.ReporterRun
import HealthRelay.Simulation.Script
import HealthRelay.Simulation.SessionRun
import HealthRelay.Simulation.SinkReader
import HealthRelay.Supervisor
import HealthRelay.Text.Ascii
import HealthRelay.Text.Blank
import HealthRelay.Text.Decimal
import HealthRelay.Text.GraphemeExtend
import HealthRelay.Text.Hex
import HealthRelay.Text.Quoted
import HealthRelay.Text.Unprintable
import HealthRelay.Text.Utf8
import HealthRelay.Ticker
import HealthRelay.Token
import HealthRelay.Toml.Document
import HealthRelay.Toml.Item
import HealthRelay.Toml.Lexical
import HealthRelay.Toml.Scalar
import HealthRelay.Toml.Writer
import HealthRelay.Watcher
