import Rostfrei.Lib.Bytes
import Rostfrei.Lib.Hex
import Rostfrei.Lib.Json
import Rostfrei.Lib.JsonText
import Rostfrei.Lib.Base64
import Rostfrei.Lib.Sha256
import Rostfrei.Lib.Fallible
import Rostfrei.Lib.Delimited
import Rostfrei.Crates
import Rostfrei.Concrete
import Rostfrei.Core.Recovery
import Rostfrei.Core.History
import Rostfrei.Core.Commits
import Rostfrei.Core.Framing
import Rostfrei.Core.Integrity
import Rostfrei.Core.Manifest
import Rostfrei.Core.Details
import Rostfrei.Memory.Reachable
import Rostfrei.Memory.Atomic
import Rostfrei.Memory.Replay
import Rostfrei.Memory.Expiry
import Rostfrei.ReadModel.Runtime
import Rostfrei.ReadModel.Deliveries
import Rostfrei.ReadModel.Ordered
import Rostfrei.Executor.Executions
import Rostfrei.Nats.Builder
import Rostfrei.Nats.Config
import Rostfrei.Lib.BinarySearch
import Rostfrei.Lib.KeyedLog
import Rostfrei.Nats.RoundTrip
import Rostfrei.Nats.Accepted
import Rostfrei.Nats.Broker
import Rostfrei.Nats.Receipt
import Rostfrei.Nats.Reader
import Rostfrei.Nats.Extend
import Rostfrei.Memory.Consistent
import Rostfrei.Nats.Staging
import Rostfrei.Runtime.Identity
import Rostfrei.Nats.Delivered
import Rostfrei.Nats.Publishers
import Rostfrei.Tracer.Correlated
import Rostfrei.Tracer.Exclusion
import Rostfrei.Tracer.Passed
import Rostfrei.Tracer.Retained
import Rostfrei.Tracer.RoundTrip
import Rostfrei.Messaging.Insertions
import Rostfrei.Messaging.Names
import Rostfrei.Executor.Simulation
import Rostfrei.Domain.Registrations
import Rostfrei.Fixtures.Plan
import Rostfrei.Fixtures.Engine
import Rostfrei.Tracer.Timeout
import Rostfrei.Tracer.Payload
import Rostfrei.Studio.Layout
import Rostfrei.Structure.Topology
import Rostfrei.AgentTools.Staging
import Rostfrei.Nats.Subjects
