import SwarmLoRA.Machine.System
import SwarmLoRA.Aggregator.SlotCalls
import SwarmLoRA.Ipc.RingDelivery
import SwarmLoRA.Aggregator.SlotMemory
import SwarmLoRA.Barrier.Crossing
import SwarmLoRA.Barrier.Evicted
import SwarmLoRA.Aggregator.Connections
import SwarmLoRA.Controller.Balancer
import SwarmLoRA.Controller.Step
import SwarmLoRA.Controller.Effects
import SwarmLoRA.Controller.Paths
import SwarmLoRA.Controller.Rounds
import SwarmLoRA.Controller.Accounts
import SwarmLoRA.Controller.Reservations
import SwarmLoRA.Controller.Queue
import SwarmLoRA.Controller.Slots
import SwarmLoRA.Controller.Lifecycle
import SwarmLoRA.Controller.Identity
import SwarmLoRA.Controller.Ports
import SwarmLoRA.Controller.Idempotency
import SwarmLoRA.Worker.Engine
import SwarmLoRA.Worker.SingleSlot
import SwarmLoRA.Barrier.Orderly
import SwarmLoRA.Cluster.Registry
import SwarmLoRA.Cluster.Index
import SwarmLoRA.Cluster.Forward
import SwarmLoRA.Cluster.Breaker
import SwarmLoRA.Cluster.Placement
import SwarmLoRA.Cluster.Failover
import SwarmLoRA.Cluster.Global
import SwarmLoRA.Cluster.Stretches
import SwarmLoRA.Cluster.Effect
import SwarmLoRA.Cluster.Draining
import SwarmLoRA.Cluster.Budget
import SwarmLoRA.Cluster.Fidelity
import SwarmLoRA.Data.Framing
import SwarmLoRA.Worker.SlotClient
import SwarmLoRA.Worker.Ownership
import SwarmLoRA.Worker.HotSwap
import SwarmLoRA.Cluster.Accounting
import SwarmLoRA.Cluster.Selection
import SwarmLoRA.Worker.PagedCache
import SwarmLoRA.Worker.TokenLoop
import SwarmLoRA.Worker.Serving
import SwarmLoRA.Worker.Generation
import SwarmLoRA.Aggregator.Sampling
import SwarmLoRA.Data.Tensor
import SwarmLoRA.Machine.Walk
import SwarmLoRA.Worker.AdapterManager
import SwarmLoRA.Worker.FailedSwap
import SwarmLoRA.Serverless.Preload
import SwarmLoRA.Serverless.Capacity
import SwarmLoRA.Data.Sorting
import SwarmLoRA.Serverless.Precedence
import SwarmLoRA.Serverless.Claiming
import SwarmLoRA.Serverless.Exclusivity
import SwarmLoRA.Data.Product
import SwarmLoRA.Worker.Deltas
import SwarmLoRA.Worker.SwapDeltas
import SwarmLoRA.Controller.Loaded
import SwarmLoRA.Controller.Assignment
import SwarmLoRA.Controller.Faithful
import SwarmLoRA.Controller.Fidelity
import SwarmLoRA.Aggregator.TopP
import SwarmLoRA.Controller.AdapterIndex
import SwarmLoRA.Data.Nucleus
import SwarmLoRA.Worker.FusedLora
import SwarmLoRA.Controller.Demand
import SwarmLoRA.Data.Rounding
import SwarmLoRA.Data.Tally
import SwarmLoRA.Controller.Rebalance
import SwarmLoRA.Controller.Reaping
import SwarmLoRA.Worker.Inference
import SwarmLoRA.Worker.Semaphore
import SwarmLoRA.Worker.BlockManager
import SwarmLoRA.Aggregator.BatchedGemm
import SwarmLoRA.Machine.Backing
import SwarmLoRA.Controller.Spawning
import SwarmLoRA.Controller.Amplification
import SwarmLoRA.Cluster.Scaling
import SwarmLoRA.Cluster.Fairness
import SwarmLoRA.Data.Base64
import SwarmLoRA.Worker.Wire
import SwarmLoRA.Worker.WireCodec
import SwarmLoRA.Data.Stream
import SwarmLoRA.Worker.WireFraming
import SwarmLoRA.Data.Files
import SwarmLoRA.Worker.AdapterPath
import SwarmLoRA.Controller.SloMetrics
import SwarmLoRA.Serverless.Batching
import SwarmLoRA.Machine.Raising
import SwarmLoRA.Serverless.Replies
import SwarmLoRA.Serverless.Positions
import SwarmLoRA.Data.Greedy
import SwarmLoRA.Serverless.Offloading
import SwarmLoRA.Data.Quota
import SwarmLoRA.Serverless.Rebalancing
import SwarmLoRA.Serverless.Swaps
import SwarmLoRA.Serverless.SwapLimits
import SwarmLoRA.Controller.FrequencyTracker
import SwarmLoRA.Data.Scan
import SwarmLoRA.Ipc.SlotSets
import SwarmLoRA.Data.Replace
import SwarmLoRA.Serverless.AdapterNames
import SwarmLoRA.Serverless.PreloadAgent
import SwarmLoRA.Barrier.Ledger
import SwarmLoRA.Barrier.LockStep
import SwarmLoRA.Data.Peak
import SwarmLoRA.Slora.Admission
import SwarmLoRA.Slora.MemoryAllocator
import SwarmLoRA.Slora.ReqQueue
import SwarmLoRA.Data.Segments
import SwarmLoRA.Slora.InferAdapter
import SwarmLoRA.Slora.InferBatch
import SwarmLoRA.Slora.ModelRpc
import SwarmLoRA.Slora.Calls
import SwarmLoRA.Slora.Router
import SwarmLoRA.Slora.Answers
import SwarmLoRA.Slora.Books
import SwarmLoRA.Slora.RouterInvariant
import SwarmLoRA.Slora.RouterSteps
import SwarmLoRA.Slora.RouterAnswers
import SwarmLoRA.Slora.RouterRuns
import SwarmLoRA.Slora.RouterProgress
import SwarmLoRA.Slora.RouterDrain
import SwarmLoRA.Data.Paged
import SwarmLoRA.Worker.PagedAttention
import SwarmLoRA.Worker.Forward
import SwarmLoRA.Cluster.Bookkeeping
