import GridClient.Address
import GridClient.Attempt.Basic
import GridClient.Attempt.Exchange
import GridClient.Attempt.Outcome
import GridClient.Attempt.Phase
import GridClient.Bytes
import GridClient.Call.Basic
import GridClient.Call.Binding
import GridClient.Call.Bulk
import GridClient.Call.Request
import GridClient.CallContext
import GridClient.Channel
import GridClient.Client
import GridClient.Config
import GridClient.Config.Settings
import GridClient.Duration
import GridClient.Error
import GridClient.Expiration
import GridClient.Flags
import GridClient.Frame.Request
import GridClient.Frame.Response
import GridClient.Hash.Mixing
import GridClient.Hash.Segment
import GridClient.Metrics
import GridClient.Operation.Answer
import GridClient.Operation.Basic
import GridClient.Operation.Body
import GridClient.Operation.Chunked
import GridClient.Operation.Entry
import GridClient.Operation.Listener
import GridClient.Operation.Statistics
import GridClient.Operation.Transaction
import GridClient.Precision
import GridClient.Program
import GridClient.Proofs.Address
import GridClient.Proofs.Call.Reach
import GridClient.Proofs.Call.Request
import GridClient.Proofs.Hash.Segment
import GridClient.Proofs.Program.History
import GridClient.Proofs.Program.Reach
import GridClient.Proofs.Scan.Completeness
import GridClient.Proofs.Scan.Coverage
import GridClient.Proofs.Scan.Discarded
import GridClient.Proofs.Scan.Life
import GridClient.Proofs.Scan.Losses
import GridClient.Proofs.Scan.Once
import GridClient.Proofs.Scan.Pages
import GridClient.Proofs.Scan.Plan
import GridClient.Proofs.Scan.Played
import GridClient.Proofs.Scan.Server
import GridClient.Proofs.Scan.Tracker
import GridClient.Proofs.Scan.Turn
import GridClient.Proofs.SegmentSet
import GridClient.Protocol.Intelligence
import GridClient.Protocol.OpCode
import GridClient.Protocol.Status
import GridClient.Protocol.Version
import GridClient.Reader
import GridClient.RemoteCache
import GridClient.Scan.Paging
import GridClient.Scan.Plan
import GridClient.Scan.Tracker
import GridClient.Scenario.Cluster
import GridClient.Scenario.Script
import GridClient.Scenario.Stage
import GridClient.Scenario.Task
import GridClient.SegmentSet
import GridClient.Table
import GridClient.Text.Parser
import GridClient.Text.Quoted
import GridClient.Text.Utf8
import GridClient.Text.Visible
import GridClient.Toml.Scalar
import GridClient.Toml.Syntax
import GridClient.Toml.Value
import GridClient.Topology.Registry
import GridClient.Topology.SegmentMap
import GridClient.Topology.Snapshot
import GridClient.Topology.Update
import GridClient.Wire.Bitset
import GridClient.Wire.Block
import GridClient.Wire.Varint
import GridClient.Proofs.Call.Hearing
import GridClient.Proofs.Call.Retries
import GridClient.Proofs.Attempt.Frames
import GridClient.Proofs.Call.Carrying
import GridClient.Proofs.Call.Grouping
import GridClient.Proofs.Call.Round
import GridClient.Proofs.Call.Positions
import GridClient.Proofs.Call.Rounds
import GridClient.Proofs.Call.Journey
import GridClient.Proofs.Call.Bulk
import GridClient.Proofs.Call.EntryOrder
import GridClient.Proofs.Scan.Interruptions
import GridClient.Proofs.Scan.Restarts
import GridClient.Proofs.Program.Work
import GridClient.Proofs.Frame.Faults
import GridClient.Proofs.Client.Serving
import GridClient.Proofs.Attempt.Dealings
import GridClient.Proofs.Attempt.Judging
import GridClient.Proofs.Attempt.Custody
import GridClient.Proofs.Attempt.Returned
import GridClient.Proofs.Attempt.Dropped
import GridClient.Proofs.Attempt.Answered
import GridClient.Proofs.Call.Efforts
import GridClient.Proofs.Call.Resending
import GridClient.Proofs.Call.Finality
import GridClient.Proofs.Topology.Settling
import GridClient.Proofs.Topology.Rejection
import GridClient.Proofs.Client.Processing
import GridClient.Proofs.Attempt.Numbers
import GridClient.Proofs.Client.Numbering
import GridClient.Proofs.Program.Heeding
import GridClient.Proofs.Call.Routing
import GridClient.Proofs.Call.Snapshot
import GridClient.Proofs.Reader.Exact
import GridClient.Proofs.Wire.Exact
import GridClient.Proofs.Frame.Decoder
import GridClient.Proofs.Reader.Ensures
import GridClient.Proofs.Wire.RoundTrip
import GridClient.Proofs.Topology.WellFormed
import GridClient.Proofs.Frame.Response
import GridClient.Proofs.Frame.Request
import GridClient.Proofs.Operation.Layout
import GridClient.Proofs.Operation.Capabilities
import GridClient.Proofs.Operation.Page
import GridClient.Proofs.Topology.Owners
import GridClient.Proofs.Call.Dispatch
import GridClient.Proofs.Call.Binding
import GridClient.Proofs.Scan.Moves
import GridClient.Proofs.Scan.Tenure
import GridClient.Proofs.Wire.Lengths
import GridClient.Proofs.Wire.Bitset
import GridClient.Proofs.Wire.Groups
import GridClient.Proofs.Operation.Factories
import GridClient.Proofs.Operation.Chunked
import GridClient.Proofs.Operation.Transaction
import GridClient.Proofs.Attempt.Phases
import GridClient.Proofs.Call.Avoiding
import GridClient.Proofs.Call.Arrival
import GridClient.Proofs.Hash.Partition
import GridClient.Proofs.Topology.Diagnostics
import GridClient.Proofs.Topology.Push
import GridClient.Proofs.Wire.Items
import GridClient.Proofs.Scan.Ledger
import GridClient.Proofs.Scan.Replanning
import GridClient.Proofs.Hash.Lossless
import GridClient.Proofs.Attempt.Runs
import GridClient.Proofs.Client.Measuring
import GridClient.Proofs.Metrics
import GridClient.Proofs.Attempt.Bookings
import GridClient.Proofs.Call.Accounting
