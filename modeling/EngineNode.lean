import EngineNode.Http.Server
import EngineNode.Inspect.Node
import EngineNode.Inspect.Settings
import EngineNode.Inspect.Wire
import EngineNode.Main
import EngineNode.Proofs.Build.Acceptance
import EngineNode.Proofs.Build.Delivery
import EngineNode.Proofs.Build.ExtraData
import EngineNode.Proofs.Build.FeeParams
import EngineNode.Proofs.Build.GasLimit
import EngineNode.Proofs.Build.Job
import EngineNode.Proofs.Chain.Canonical
import EngineNode.Proofs.Chain.Head
import EngineNode.Proofs.Downloader
import EngineNode.Proofs.Engine.Attributes
import EngineNode.Proofs.Engine.Bodies
import EngineNode.Proofs.Engine.CachedWitness
import EngineNode.Proofs.Engine.Capacity
import EngineNode.Proofs.Engine.Choice
import EngineNode.Proofs.Engine.Confluence
import EngineNode.Proofs.Engine.Descendants
import EngineNode.Proofs.Engine.Extremes
import EngineNode.Proofs.Engine.Finality
import EngineNode.Proofs.Engine.ForkFields
import EngineNode.Proofs.Engine.Fulfilment
import EngineNode.Proofs.Engine.Gauges
import EngineNode.Proofs.Engine.HeaderQueue
import EngineNode.Proofs.Engine.Liveness
import EngineNode.Proofs.Engine.Order
import EngineNode.Proofs.Engine.Overflow
import EngineNode.Proofs.Engine.Rejection
import EngineNode.Proofs.Engine.Reorganization
import EngineNode.Proofs.Engine.Repetition
import EngineNode.Proofs.Engine.Return
import EngineNode.Proofs.Engine.Stateless
import EngineNode.Proofs.Engine.Syncing
import EngineNode.Proofs.Execution.Calls
import EngineNode.Proofs.Header.Canonical
import EngineNode.Proofs.JsonRpc.Breakdown
import EngineNode.Proofs.Payload.Inverse
import EngineNode.Proofs.ProtocolVersion
import EngineNode.Proofs.Requests
import EngineNode.Proofs.Transaction.BlobHashes
import EngineNode.Proofs.Trie.Binding
import EngineNode.Proofs.Trie.Patricia
import EngineNode.Proofs.Wire.RoundTrip
