import GovernanceCache.About
import GovernanceCache.Activity
import GovernanceCache.Buckets
import GovernanceCache.ByKind
import GovernanceCache.Calendar
import GovernanceCache.Catalog
import GovernanceCache.Change
import GovernanceCache.Clock
import GovernanceCache.Decimal.Places
import GovernanceCache.Decimal.Shortest
import GovernanceCache.Desk
import GovernanceCache.Document
import GovernanceCache.Document.Fault
import GovernanceCache.Document.Form
import GovernanceCache.Document.Reader
import GovernanceCache.Document.Text
import GovernanceCache.Fault
import GovernanceCache.Feed
import GovernanceCache.Index
import GovernanceCache.Instances
import GovernanceCache.Instant
import GovernanceCache.Instant.Text
import GovernanceCache.Kind
import GovernanceCache.Manager
import GovernanceCache.Merge
import GovernanceCache.Namespaces
import GovernanceCache.OpenRequest
import GovernanceCache.Page
import GovernanceCache.Proofs.BatchOutcome
import GovernanceCache.Proofs.BucketLaws
import GovernanceCache.Proofs.CalendarDays
import GovernanceCache.Proofs.CallerCourse
import GovernanceCache.Proofs.CalmSteps
import GovernanceCache.Proofs.Chronicle
import GovernanceCache.Proofs.ClosedForGood
import GovernanceCache.Proofs.CounterAccounts
import GovernanceCache.Proofs.CrewClosing
import GovernanceCache.Proofs.CrewDesks
import GovernanceCache.Proofs.CrewMirrors
import GovernanceCache.Proofs.Crews
import GovernanceCache.Proofs.Deliveries
import GovernanceCache.Proofs.DeskCalls
import GovernanceCache.Proofs.DeskSession
import GovernanceCache.Proofs.DigitLaws
import GovernanceCache.Proofs.FeedAccounts
import GovernanceCache.Proofs.FilledForms
import GovernanceCache.Proofs.FirstLoads
import GovernanceCache.Proofs.Flights
import GovernanceCache.Proofs.GracefulStop
import GovernanceCache.Proofs.HashedBytes
import GovernanceCache.Proofs.HeldCalls
import GovernanceCache.Proofs.InstanceIndexes
import GovernanceCache.Proofs.KeysApart
import GovernanceCache.Proofs.Listeners
import GovernanceCache.Proofs.ManagerLife
import GovernanceCache.Proofs.Merging
import GovernanceCache.Proofs.MissedWrites
import GovernanceCache.Proofs.NameTakers
import GovernanceCache.Proofs.Openings
import GovernanceCache.Proofs.PullCounts
import GovernanceCache.Proofs.QueryPages
import GovernanceCache.Proofs.ReadAfterWrite
import GovernanceCache.Proofs.RepeatedBatches
import GovernanceCache.Proofs.Replaying
import GovernanceCache.Proofs.ReplicaPulls
import GovernanceCache.Proofs.ReplicasAgree
import GovernanceCache.Proofs.RevisionLaws
import GovernanceCache.Proofs.RuleIndexes
import GovernanceCache.Proofs.ScopeEndings
import GovernanceCache.Proofs.SerialPulls
import GovernanceCache.Proofs.ServiceIndexes
import GovernanceCache.Proofs.SessionContents
import GovernanceCache.Proofs.Snapshots
import GovernanceCache.Proofs.Sources
import GovernanceCache.Proofs.StartLedger
import GovernanceCache.Proofs.StartTasks
import GovernanceCache.Proofs.TimelyPulls
import GovernanceCache.Proofs.UsableSettings
import GovernanceCache.Proofs.VainStarts
import GovernanceCache.Proofs.Visibility
import GovernanceCache.Proofs.WatermarkAccounts
import GovernanceCache.Proofs.WatermarkReach
import GovernanceCache.Proofs.WholePulls
import GovernanceCache.Proofs.WorldCourse
import GovernanceCache.Proofs.WorldFrames
import GovernanceCache.Proofs.WrittenInstants
import GovernanceCache.Proofs.WrittenRecords
import GovernanceCache.QualifiedName
import GovernanceCache.Record
import GovernanceCache.Record.Instance
import GovernanceCache.Record.Namespace
import GovernanceCache.Record.Rule
import GovernanceCache.Record.Service
import GovernanceCache.Refresher
import GovernanceCache.Replica
import GovernanceCache.Revision
import GovernanceCache.Roster
import GovernanceCache.Rules
import GovernanceCache.Scope
import GovernanceCache.Scope.Holders
import GovernanceCache.Services
import GovernanceCache.Settings
import GovernanceCache.SingleFlight
import GovernanceCache.SingleFlight.Callers
import GovernanceCache.Store
import GovernanceCache.Table
import GovernanceCache.Tally
import GovernanceCache.Text.Blank
import GovernanceCache.Text.Digits
import GovernanceCache.Text.Hidden
import GovernanceCache.Text.Quoted
import GovernanceCache.Waiting
import GovernanceCache.Watermark
import GovernanceCache.World
import GovernanceCache.World.Loop
import GovernanceCache.World.Polling
import GovernanceCache.World.Schedule
import GovernanceCache.World.Start
