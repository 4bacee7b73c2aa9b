import RedisAllocator.Lib.AbortableScript
import RedisAllocator.Lib.ScriptPairs
import RedisAllocator.Lib.TailCalls
import RedisAllocator.Lib.NeighbourList
import RedisAllocator.Lib.LabelledRun
import RedisAllocator.Lib.Replay
import RedisAllocator.Lib.History
import RedisAllocator.Lib.FifoOrder
import RedisAllocator.Lib.PointerWalk
import RedisAllocator.Lib.Noninterference
import RedisAllocator.Lib.DeadlinePolling
import RedisAllocator.Lib.WorkQueue
import RedisAllocator.Lib.GuardedRegister
import RedisAllocator.Lib.ComparingRegister
import RedisAllocator.Lib.Glob
import RedisAllocator.Redis.Store
import RedisAllocator.Allocator.LuaLibrary
import RedisAllocator.Allocator.LuaFrames
import RedisAllocator.Allocator.Scripts
import RedisAllocator.Allocator.Termination
import RedisAllocator.Allocator.CommandRuns
import RedisAllocator.Allocator.LockFrames
import RedisAllocator.Allocator.Exclusivity
import RedisAllocator.Allocator.Ledger
import RedisAllocator.Allocator.Policy
import RedisAllocator.Pool.FreePool
import RedisAllocator.Pool.QueueBatches
import RedisAllocator.Pool.Refinement
import RedisAllocator.Pool.ScriptSpecs
import RedisAllocator.Pool.Soundness
import RedisAllocator.Pool.Runs
import RedisAllocator.Pool.FreeList
import RedisAllocator.Pool.Batches
import RedisAllocator.Pool.Handouts
import RedisAllocator.Pool.AgeOut
import RedisAllocator.Pool.Allocation
import RedisAllocator.Pool.RoundRobin
import RedisAllocator.Pool.Sweep
import RedisAllocator.Pool.QueueMachine
import RedisAllocator.Pool.Fairness
import RedisAllocator.Pool.Recovery
import RedisAllocator.Pool.ScanCycle
import RedisAllocator.Pool.Tenure
import RedisAllocator.Pool.Replacement
import RedisAllocator.Codec.LuaString
import RedisAllocator.Objects.Locks
import RedisAllocator.Objects.KeyNames
import RedisAllocator.Objects.Namespaces
import RedisAllocator.Objects.Session
import RedisAllocator.Objects.SoftBinding
import RedisAllocator.Objects.Leases
import RedisAllocator.Objects.Heartbeats
import RedisAllocator.Locks.LockClasses
import RedisAllocator.Locks.Ownership
import RedisAllocator.Locks.Simulation
import RedisAllocator.Lib.GreedyMatch
import RedisAllocator.Codec.LuaNumber
import RedisAllocator.Codec.PoolValue
import RedisAllocator.Codec.StoredScripts
import RedisAllocator.Codec.StoredRuns
import RedisAllocator.Locks.Conditional
import RedisAllocator.Locks.Registers
import RedisAllocator.Locks.LockPools
import RedisAllocator.Locks.PoolHealth
import RedisAllocator.Locks.ThreadHealth
import RedisAllocator.Objects.DefaultPolicy
import RedisAllocator.Objects.Healing
import RedisAllocator.Objects.PolicyRuns
import RedisAllocator.Objects.Quarantine
import RedisAllocator.Objects.HealthCheck
import RedisAllocator.Objects.UpdateLock
import RedisAllocator.Diagnostics.Invariants
import RedisAllocator.Diagnostics.Decoding
import RedisAllocator.Diagnostics.Soundness
import RedisAllocator.Diagnostics.Completeness
import RedisAllocator.Diagnostics.Counters
import RedisAllocator.Diagnostics.LivePools
import RedisAllocator.Diagnostics.Scanning
import RedisAllocator.Diagnostics.Bindings
import RedisAllocator.Diagnostics.Orphans
import RedisAllocator.Diagnostics.Snapshot
import RedisAllocator.Diagnostics.Dashboard
import RedisAllocator.TaskQueue.Tasks
import RedisAllocator.TaskQueue.Execution
import RedisAllocator.TaskQueue.RemoteExecution
import RedisAllocator.TaskQueue.RemoteListener
import RedisAllocator.TaskQueue.Query
import RedisAllocator.TaskQueue.Delivery
import RedisAllocator.TaskQueue.Routing
import RedisAllocator.TaskQueue.Provenance
import RedisAllocator.TaskQueue.Listening
import RedisAllocator.TaskQueue.KeyNames
import RedisAllocator.TaskQueue.Keyspace
