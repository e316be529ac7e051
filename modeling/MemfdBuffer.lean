import MemfdBuffer.Lib.Tally
import MemfdBuffer.Lib.Machine
import MemfdBuffer.Lib.Latch
import MemfdBuffer.Lib.SwapRemove
import MemfdBuffer.Lib.Slots
import MemfdBuffer.Lib.Simulation
import MemfdBuffer.Lib.AddressSpace
import MemfdBuffer.Lib.FdTable
import MemfdBuffer.Lib.Partial
import MemfdBuffer.Lib.Separator
import MemfdBuffer.Lib.NamedObjects
import MemfdBuffer.Lib.Fair
import MemfdBuffer.Header
import MemfdBuffer.Buffer
import MemfdBuffer.Descriptor
import MemfdBuffer.Atomic.World
import MemfdBuffer.Atomic.Step
import MemfdBuffer.Atomic.Cases
import MemfdBuffer.Atomic.Refs
import MemfdBuffer.Atomic.Keeps
import MemfdBuffer.Atomic.Inv
import MemfdBuffer.Atomic.Pinned
import MemfdBuffer.Atomic.Objects
import MemfdBuffer.Atomic.Account
import MemfdBuffer.Atomic.Counting
import MemfdBuffer.Atomic.Generations
import MemfdBuffer.Atomic.Grace
import MemfdBuffer.Pool
import MemfdBuffer.PoolInv
import MemfdBuffer.PoolAlloc
import MemfdBuffer.PoolRun
import MemfdBuffer.PoolBlocks
import MemfdBuffer.BlockIds
import MemfdBuffer.Proc.World
import MemfdBuffer.Proc.Calls
import MemfdBuffer.Proc.Inv
import MemfdBuffer.Proc.Objects
import MemfdBuffer.Proc.Handles
import MemfdBuffer.Proc.Specs
import MemfdBuffer.Proc.Runs
import MemfdBuffer.Proc.Frame
import MemfdBuffer.Proc.Live
import MemfdBuffer.Proc.Contents
import MemfdBuffer.Proc.Capability
import MemfdBuffer.Proc.Throws
import MemfdBuffer.Proc.Progress
import MemfdBuffer.Proc.Arrays
import MemfdBuffer.Proc.Resizing
import MemfdBuffer.Endpoint
import MemfdBuffer.Proc.Publication
import MemfdBuffer.Proc.Fallback
import MemfdBuffer.Ownership
import MemfdBuffer.Proc.Exclusive
import MemfdBuffer.Proc.Lifecycle
import MemfdBuffer.FirstAccess
import MemfdBuffer.Import.World
import MemfdBuffer.Import.Outcome
import MemfdBuffer.Import.Accept
import MemfdBuffer.Import.Unwind
import MemfdBuffer.Import.System
import MemfdBuffer.Import.Lookup
import MemfdBuffer.Import.Transparency
import MemfdBuffer.Import.Rendezvous
import MemfdBuffer.Import.Delivery
import MemfdBuffer.Import.Ledger
import MemfdBuffer.Windows.Platform
import MemfdBuffer.Windows.Mappings
import MemfdBuffer.Windows.System
import MemfdBuffer.Windows.Identity
import MemfdBuffer.WriteAccess
import MemfdBuffer.Proc.Turn
import MemfdBuffer.Python.World
import MemfdBuffer.Python.Inv
import MemfdBuffer.Python.Lifetimes
import MemfdBuffer.Python.Runs
import MemfdBuffer.Python.Programs
import MemfdBuffer.Python.Values
import MemfdBuffer.Broker.Registry
import MemfdBuffer.Broker.Lifetime
import MemfdBuffer.Broker.Dispatch
import MemfdBuffer.Broker.Delivery
import MemfdBuffer.Broker.Shutdown
import MemfdBuffer.Broker.Leaks
import MemfdBuffer.Linux.Life
import MemfdBuffer.Linux.Pool
