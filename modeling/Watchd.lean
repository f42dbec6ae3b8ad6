import Watchd.Lib.Transition
import Watchd.Cdc.Types
import Watchd.Watch.Hub
import Watchd.Watch.System
import Watchd.Watch.Index
import Watchd.Lib.Grouping
import Watchd.Watch.Ending
import Watchd.Watch.Fanout
import Watchd.Watch.Accept
import Watchd.Lib.Feed
import Watchd.Watch.Steps
import Watchd.Watch.Retention
import Watchd.Watch.Handoff
import Watchd.Watch.Invariant
import Watchd.Watch.Reachable
import Watchd.Watch.Delivery
import Watchd.Watch.Progress
import Watchd.Watch.Promise
import Watchd.Cdc.Relation
import Watchd.Cdc.Decoder
import Watchd.Cdc.RowKey
import Watchd.Cdc.Validation
import Watchd.Cdc.Consume
import Watchd.Watch.Routing
import Watchd.Cdc.Stream
import Watchd.Daemon.Run
import Watchd.Daemon.Replication
import Watchd.Daemon.Announce
import Watchd.Sdk.Client
import Watchd.Sdk.Freshness
import Watchd.Lib.History
import Watchd.Watch.Floor
import Watchd.Watch.Ticks
import Watchd.Watch.Stale
import Watchd.Cdc.Incompatible
import Watchd.Cdc.Source
import Watchd.Cdc.Lifecycle
import Watchd.Watch.Resumable
import Watchd.Watch.Grammar
import Watchd.Server.Wire
import Watchd.Sdk.Receive
import Watchd.Lib.Tables
import Watchd.Sdk.Memory
import Watchd.Sdk.Boundary
import Watchd.Lib.Observed
import Watchd.Watch.Sight
import Watchd.Watch.Isolation
import Watchd.Server.Shared
import Watchd.Lib.Paths
import Watchd.Sdk.Scene
import Watchd.Sdk.Follow
import Watchd.Sdk.Told
import Watchd.Sdk.Mirror
import Watchd.Sdk.Existed
import Watchd.Cdc.Baselines
import Watchd.Cdc.Changes
import Watchd.Cdc.Retry
import Watchd.Cdc.Updates
import Watchd.Cdc.Visibility
import Watchd.Cdc.Segments
import Watchd.Cdc.Verdicts
import Watchd.Watch.Calls
import Watchd.Cdc.InFlight
import Watchd.Lib.Pages
import Watchd.Lib.Replay
import Watchd.Sdk.Replay
import Watchd.Server.Packing
import Watchd.Cdc.Scan
import Watchd.Lib.Custody
import Watchd.Lib.Hex
import Watchd.Lib.Objects
import Watchd.Sdk.Evidence
import Watchd.Sdk.Refines
import Watchd.Sdk.Roundtrip
import Watchd.Sdk.Writers
import Watchd.Server.Order
import Watchd.Cdc.Config
import Watchd.Cdc.RetentionPolicy
import Watchd.Cdc.Reader
import Watchd.Lib.Dialogue
import Watchd.Cdc.Sessions
import Watchd.Cdc.Postgres
import Watchd.Cdc.Primitives
import Watchd.Cdc.Boundaries
import Watchd.Sdk.Pacing
import Watchd.Daemon.Config
import Watchd.Daemon.Serve
import Watchd.Lib.Shadow
import Watchd.Daemon.Pipeline
import Watchd.Cdc.Stopping
import Watchd.Watch.Causes
import Watchd.Server.Status
import Watchd.Sdk.Persists
import Watchd.Cdc.Faults
import Watchd.Server.Advance
