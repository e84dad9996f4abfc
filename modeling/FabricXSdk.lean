import FabricXSdk.Lib.Golang
import FabricXSdk.Lib.Atomic
import FabricXSdk.Lib.VersionLog
import FabricXSdk.Lib.Wire
import FabricXSdk.Lib.Protobuf
import FabricXSdk.Lib.Transition
import FabricXSdk.Lib.KeepFirst
import FabricXSdk.Lib.Channel
import FabricXSdk.Lib.Memo
import FabricXSdk.Lib.Backoff
import FabricXSdk.Lib.Components
import FabricXSdk.Lib.RoundRobin
import FabricXSdk.Lib.ForkJoin
import FabricXSdk.Lib.Merge
import FabricXSdk.Proto.Messages
import FabricXSdk.Proto.Encoding
import FabricXSdk.Blocks.Types
import FabricXSdk.Blocks.Mvcc
import FabricXSdk.Blocks.Parser
import FabricXSdk.Blocks.Processor
import FabricXSdk.Blocks.Fabric
import FabricXSdk.Blocks.FabricX
import FabricXSdk.Blocks.Malformed
import FabricXSdk.Blocks.Exact
import FabricXSdk.Blocks.Positions
import FabricXSdk.Blocks.Codes
import FabricXSdk.Endorsement.Types
import FabricXSdk.Endorsement.FabricX
import FabricXSdk.Endorsement.Split
import FabricXSdk.Endorsement.Fabric
import FabricXSdk.Endorsement.Deterministic
import FabricXSdk.Endorsement.Proposals
import FabricXSdk.Endorsement.Results
import FabricXSdk.Network.Packager
import FabricXSdk.Network.Packaging
import FabricXSdk.Network.Endorsed
import FabricXSdk.Network.RoundTrip
import FabricXSdk.Network.Classic
import FabricXSdk.State.Database
import FabricXSdk.State.Update
import FabricXSdk.State.History
import FabricXSdk.State.Reads
import FabricXSdk.State.Serializability
import FabricXSdk.State.Simulation
import FabricXSdk.State.Replay
import FabricXSdk.State.Snapshots
import FabricXSdk.State.Sequential
import FabricXSdk.State.Modes
import FabricXSdk.State.Fresh
import FabricXSdk.State.QueryService
import FabricXSdk.State.NewBlock
import FabricXSdk.State.Views
import FabricXSdk.Local.Submit
import FabricXSdk.Local.Concurrent
import FabricXSdk.Network.Synchronizer
import FabricXSdk.Network.Lifecycle
import FabricXSdk.Network.Monitors
import FabricXSdk.Network.Readiness
import FabricXSdk.Network.Delivery
import FabricXSdk.Network.Resume
import FabricXSdk.Network.Coverage
import FabricXSdk.Network.CaughtUp
import FabricXSdk.Network.Priming
import FabricXSdk.Network.Orderer
import FabricXSdk.Network.OrdererCalls
import FabricXSdk.Network.Broadcasts
import FabricXSdk.Network.Submitter
import FabricXSdk.Network.Submissions
import FabricXSdk.Notification.Types
import FabricXSdk.FabricTest.Sidecar
import FabricXSdk.Network.BlockEvent
import FabricXSdk.Network.StatusFilter
import FabricXSdk.Network.Selection
import FabricXSdk.Network.Notify
import FabricXSdk.Notification.Registry
import FabricXSdk.Notification.Finality
import FabricXSdk.Notification.Ownership
import FabricXSdk.Notification.Answers
import FabricXSdk.Notification.Subscriptions
import FabricXSdk.Notification.AllTx
import FabricXSdk.Notification.Reconnect
import FabricXSdk.FabricTest.Ledger
import FabricXSdk.FabricTest.Chain
import FabricXSdk.FabricTest.Filter
import FabricXSdk.FabricTest.Client
import FabricXSdk.FabricTest.Ordering
import FabricXSdk.FabricTest.Deliver
import FabricXSdk.FabricTest.Gapless
import FabricXSdk.FabricTest.Batching
import FabricXSdk.FabricTest.Service
import FabricXSdk.Network.SeekInfo
import FabricXSdk.Network.Follower
import FabricXSdk.Network.EndorsementClient
import FabricXSdk.Network.BlockHeight
import FabricXSdk.Network.Submitted
import FabricXSdk.Network.Pipeline
import FabricXSdk.Local.Programs
import FabricXSdk.Network.LiveFeed
