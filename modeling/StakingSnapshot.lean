import StakingSnapshot.Abi.Kind
import StakingSnapshot.Abi.Layout
import StakingSnapshot.Abi.Method
import StakingSnapshot.Address
import StakingSnapshot.Aggregate
import StakingSnapshot.Amount
import StakingSnapshot.Binary64
import StakingSnapshot.Bytes
import StakingSnapshot.Call
import StakingSnapshot.Config
import StakingSnapshot.Contract.Basic
import StakingSnapshot.Contract.Minipool
import StakingSnapshot.Contract.Network
import StakingSnapshot.Contract.Node
import StakingSnapshot.Contract.Proposal
import StakingSnapshot.Fault
import StakingSnapshot.Job
import StakingSnapshot.Json
import StakingSnapshot.Json.Reader
import StakingSnapshot.Keccak
import StakingSnapshot.Log
import StakingSnapshot.Minipool.Record
import StakingSnapshot.Minipool.Shares
import StakingSnapshot.Minipool.Snapshot
import StakingSnapshot.Network.EffectiveStake
import StakingSnapshot.Network.Record
import StakingSnapshot.Network.Snapshot
import StakingSnapshot.Node.Distributor
import StakingSnapshot.Node.Record
import StakingSnapshot.Node.Snapshot
import StakingSnapshot.Observer
import StakingSnapshot.Parameter
import StakingSnapshot.Parameter.Formats
import StakingSnapshot.Pool
import StakingSnapshot.Proposal.Record
import StakingSnapshot.Proposal.Snapshot
import StakingSnapshot.Registry
import StakingSnapshot.Rpc
import StakingSnapshot.Schedule
import StakingSnapshot.Session
import StakingSnapshot.Snapshot
import StakingSnapshot.Status
import StakingSnapshot.StorageKey
import StakingSnapshot.Text
import StakingSnapshot.Text.Scalar
import StakingSnapshot.Version
import StakingSnapshot.Word
import StakingSnapshot.Proofs.Abi.RoundTrip
import StakingSnapshot.Proofs.Chain
import StakingSnapshot.Proofs.Call.Settlement
import StakingSnapshot.Proofs.Job.Outcome
import StakingSnapshot.Proofs.Schedule.Batches
import StakingSnapshot.Proofs.Call.Slots
import StakingSnapshot.Proofs.Pool.Outcome
import StakingSnapshot.Proofs.Schedule.Attribution
import StakingSnapshot.Proofs.Schedule.Failure
import StakingSnapshot.Proofs.Schedule.Interleaving
import StakingSnapshot.Proofs.Schedule.PlainLoop
import StakingSnapshot.Proofs.Call.Conclusion
import StakingSnapshot.Proofs.Call.Told
import StakingSnapshot.Proofs.Node.Distributor
import StakingSnapshot.Proofs.Schedule.Items
import StakingSnapshot.Proofs.Schedule.Sent
import StakingSnapshot.Proofs.Snapshot.Reading
import StakingSnapshot.Proofs.Minipool.Rounds
import StakingSnapshot.Proofs.Minipool.Fields
import StakingSnapshot.Proofs.Minipool.Bulk
import StakingSnapshot.Proofs.Minipool.Shares
import StakingSnapshot.Proofs.Schedule.Same
import StakingSnapshot.Proofs.Snapshot.Same
import StakingSnapshot.Proofs.Minipool.Atlas
import StakingSnapshot.Proofs.Minipool.Legacy
import StakingSnapshot.Proofs.Minipool.Unsupported
import StakingSnapshot.Proofs.Network.EffectiveStake
import StakingSnapshot.Proofs.Call.Modes
import StakingSnapshot.Proofs.Call.History
import StakingSnapshot.Proofs.Schedule.Visits
import StakingSnapshot.Proofs.Schedule.Trace
import StakingSnapshot.Proofs.Schedule.Unreadable
import StakingSnapshot.Proofs.Version.Agreement
import StakingSnapshot.Proofs.Abi.Canonical
import StakingSnapshot.Proofs.Call.Envelope
import StakingSnapshot.Proofs.Call.Strict
import StakingSnapshot.Proofs.Session.Conduct
import StakingSnapshot.Proofs.Snapshot.Getter
import StakingSnapshot.Proofs.Snapshot.Follows
import StakingSnapshot.Proofs.Snapshot.Pinned
import StakingSnapshot.Proofs.Call.Interface
import StakingSnapshot.Proofs.Session.Verdict
import StakingSnapshot.Proofs.Schedule.Judged
import StakingSnapshot.Proofs.Schedule.Kept
import StakingSnapshot.Proofs.Snapshot.Conforms
import StakingSnapshot.Proofs.Snapshot.Judged
import StakingSnapshot.Proofs.Minipool.Refusal
import StakingSnapshot.Proofs.Snapshot.AllOrNothing
import StakingSnapshot.Proofs.Proposal.Fields
import StakingSnapshot.Proofs.Snapshot.Counts
import StakingSnapshot.Proofs.Schedule.Frame
import StakingSnapshot.Proofs.Minipool.CompleteShares
import StakingSnapshot.Proofs.Registry.Load
import StakingSnapshot.Proofs.Network.Fields
import StakingSnapshot.Proofs.Network.Choice
import StakingSnapshot.Proofs.Node.Formula
import StakingSnapshot.Proofs.Node.Monotone
import StakingSnapshot.Proofs.Snapshot.Logging
import StakingSnapshot.Proofs.Proposal.Numbered
import StakingSnapshot.Proofs.Minipool.Completed
import StakingSnapshot.Proofs.Parameter.Written
import StakingSnapshot.Proofs.Parameter.Cache
import StakingSnapshot.Proofs.Parameter.Integral
import StakingSnapshot.Proofs.Schedule.Ranges
import StakingSnapshot.Proofs.Text.Blank
import StakingSnapshot.Proofs.Text.Digits
import StakingSnapshot.Proofs.Text.Marks
import StakingSnapshot.Proofs.Text.Address
import StakingSnapshot.Proofs.Text.Codec
import StakingSnapshot.Proofs.Rpc.Envelope
import StakingSnapshot.Proofs.Text.Decimal
import StakingSnapshot.Proofs.Fault.Layers
import StakingSnapshot.Proofs.StorageKey
import StakingSnapshot.Proofs.Config.Settings
import StakingSnapshot.Proofs.Config.Usable
