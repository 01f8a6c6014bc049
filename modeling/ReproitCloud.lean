import ReproitCloud.Lib.Runs
import ReproitCloud.Lib.Table
import ReproitCloud.Lib.CountView
import ReproitCloud.Data.Json
import ReproitCloud.Data.Time
import ReproitCloud.Telemetry.Store
import ReproitCloud.Telemetry.Cohorts
import ReproitCloud.Telemetry.Ingest
import ReproitCloud.Telemetry.DeleteTrigger
import ReproitCloud.Telemetry.ReadModel
import ReproitCloud.Telemetry.Deletion
import ReproitCloud.Telemetry.Consistency
import ReproitCloud.Triage.Resolution
import ReproitCloud.Triage.Reads
import ReproitCloud.Triage.Verdicts
import ReproitCloud.Triage.Agreement
import ReproitCloud.Jobs.Queue
import ReproitCloud.Jobs.Scheduler
import ReproitCloud.Jobs.Token
import ReproitCloud.Jobs.Fleet
import ReproitCloud.Jobs.Hint
import ReproitCloud.Jobs.LaneCap
import ReproitCloud.Control.Store
import ReproitCloud.Jobs.Fencing
import ReproitCloud.Control.ProjectKeys
import ReproitCloud.Http.Gates
import ReproitCloud.Http.Routes
import ReproitCloud.Jobs.Completion
import ReproitCloud.Lib.Processes
import ReproitCloud.Captures.Store
import ReproitCloud.Captures.Immutable
import ReproitCloud.Captures.Integrity
import ReproitCloud.Integrations.NoLostWork
import ReproitCloud.Integrations.OneIssue
import ReproitCloud.Lib.ChangeLog
import ReproitCloud.Triage.Sweep
import ReproitCloud.Members.Handlers
import ReproitCloud.Members.Owners
import ReproitCloud.Identity.Flows
import ReproitCloud.Identity.Workspace
import ReproitCloud.Lib.Segments
import ReproitCloud.Members.People
import ReproitCloud.Members.Seats
import ReproitCloud.Tenancy.BlobRoute
import ReproitCloud.Lib.Alone
import ReproitCloud.Tenancy.Flows
import ReproitCloud.Tenancy.Provisioning
import ReproitCloud.Tenancy.Resolver
import ReproitCloud.Tenancy.Offboarding
import ReproitCloud.Lib.Transaction
import ReproitCloud.Protocol.Batch
import ReproitCloud.Telemetry.ExactlyOnce
import ReproitCloud.Telemetry.Migration
import ReproitCloud.Telemetry.Storable
import ReproitCloud.Telemetry.Traffic
import ReproitCloud.Jobs.Isolation
import ReproitCloud.Jobs.Ranking
import ReproitCloud.Jobs.Urgency
import ReproitCloud.Lib.Extremes
import ReproitCloud.Lib.JoinedFields
import ReproitCloud.Telemetry.Buckets
import ReproitCloud.Triage.PostFix
import ReproitCloud.Telemetry.Graphs
import ReproitCloud.Lib.Lexemes
import ReproitCloud.Telemetry.Discriminators
import ReproitCloud.Telemetry.Messages
import ReproitCloud.Telemetry.Replay
import ReproitCloud.Integrations.Secrets
import ReproitCloud.Integrations.Settings
import ReproitCloud.Lib.Accumulate
import ReproitCloud.Telemetry.Timeline
import ReproitCloud.Triage.Replays
import ReproitCloud.Captures.Manifests
import ReproitCloud.Triage.Packages
import ReproitCloud.Control.Bootstrap
import ReproitCloud.Control.Rotation
import ReproitCloud.Http.Csrf
import ReproitCloud.Lib.Eviction
import ReproitCloud.Lib.Keyset
import ReproitCloud.Lib.Loops
import ReproitCloud.Lib.Recency
import ReproitCloud.Lib.Scores
import ReproitCloud.Telemetry.Export
import ReproitCloud.Telemetry.Retention
import ReproitCloud.Tenancy.Caches
import ReproitCloud.Tenancy.Credentials
import ReproitCloud.Triage.DueWork
import ReproitCloud.Triage.Impact
import ReproitCloud.Tenancy.LocalUrls
import ReproitCloud.Http.Hosts
import ReproitCloud.Contracts.Redaction
import ReproitCloud.Contracts.Trace
import ReproitCloud.Control.AppIds
import ReproitCloud.Contracts.Capture
import ReproitCloud.Lib.BoundedText
import ReproitCloud.Lib.TopologicalOrder
import ReproitCloud.Lib.Worklist
import ReproitCloud.Protocol.Causal
import ReproitCloud.Protocol.Reading
import ReproitCloud.Protocol.Lines
import ReproitCloud.Control.AppLimit
import ReproitCloud.Captures.AppsApart
import ReproitCloud.Identity.CliLogin
import ReproitCloud.Identity.MintsOnce
import ReproitCloud.Identity.Reset
import ReproitCloud.Integrations.CloudRuns
import ReproitCloud.Jobs.Overtaking
import ReproitCloud.Triage.Tickets
import ReproitCloud.Jobs.Reports
import ReproitCloud.Triage.Forward
import ReproitCloud.Lib.Groups
import ReproitCloud.Triage.Grouping
import ReproitCloud.Integrations.IssueText
import ReproitCloud.Telemetry.CohortCards
import ReproitCloud.Protocol.Environment
import ReproitCloud.Triage.Fixture
