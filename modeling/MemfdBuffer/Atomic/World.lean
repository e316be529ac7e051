import MemfdBuffer.Descriptor
import MemfdBuffer.Lib.Machine

/-!
# Shared memory at the granularity of single atomic accesses

All processes and all blocks, with every call in flight cut at its accesses to the control headers:
one action is one atomic load, store, CAS or `fetch_sub`, one payload byte access, one reading of the
clock, or a stretch of code that touches no shared memory. Calls are `Task`s, which any process may
start at any time; an `allocate` runs under its pool's mutex and is the pool's `AllocPc`.

Over-approximations, all of them giving more runs than the code has: `allocate` may try the free
blocks of its size in any order, several times, and may create a block without having tried them all;
process-local refusals (`HandleState`) are left out, so every call may reach the header.

A task re-reads the slot of the buffer it works on and stops if the buffer is no longer there: a call
whose object is destroyed under it is a data race, which the callers exclude.

The fields below `-- history` are not in the source; no step reads them except where stated.
-/

namespace MemfdBuffer.Atomic

/-- A block with the process that owns it. -/
structure PhysBlock extends SharedBufferBlock where
  /-- The pool, one for each publisher process. -/
  pool : Nat
  pid : Int
  -- history
  /-- The number of earlier allocations of the block. -/
  gen : Nat := 0
  /-- The UID of each generation. -/
  draws : List UInt64 := []
  /-- `mark_published` has stored the UID of this generation. -/
  published : Bool := false
  /-- The first `allocate` of the block has returned. -/
  ready : Bool := false
deriving DecidableEq

/-- A descriptor as it was created. -/
structure DescRec where
  d : SharedBufferDescriptor
  -- history
  blk : Nat
  gen : Nat
  /-- The clock at that moment; after the store of the stamp nothing shared is touched. -/
  time : Nat
  /-- The payload. -/
  bytes : List UInt8
  /-- The descriptor that the relaying buffer was imported from. -/
  parent : Option Nat
deriving DecidableEq

/-- A `SharedBuffer` object. -/
structure BufSlot where
  buf : SharedBuffer
  -- history
  /-- The generation of the block the buffer was allocated from or imported. -/
  gen : Nat := 0
  /-- The descriptor it was imported from. -/
  src : Option Nat := none
deriving DecidableEq

/-- A `ReadHandle` object. -/
structure ReadSlot where
  handle : ReadHandle
  -- history
  gen : Nat := 0
  src : Option Nat := none
deriving DecidableEq

/-- `allocate` under the mutex of one pool. -/
inductive AllocPc
  | idle
  /-- Walking the bucket of `size`. -/
  | scan (size : Nat)
  /-- Candidate `b`: `publish_timestamp_us` was read, when there were `made` descriptors (history). -/
  | loaded (size b published made : Nat)
  /-- Candidate `b`: the grace test passed. -/
  | checked (size b published made : Nat)
  /-- The block is chosen, its UID drawn; `fresh`: by `create_block`, without a claim. -/
  | chosen (b : Nat) (fresh : Bool)
  /-- `ipc_uid` is cleared. -/
  | uidCleared (b : Nat) (fresh : Bool)
  /-- `publish_timestamp_us` is cleared. -/
  | stampCleared (b : Nat) (fresh : Bool)
deriving DecidableEq

/-- What an acquired reader is for. -/
inductive AcquireFor
  | importing (j : Nat)
  | reading (i : Nat) (s : BufSlot)
  | holding (i : Nat) (s : BufSlot)
deriving DecidableEq

/-- What follows a `reset` or `release`. -/
inductive After
  | destroyed
  | assignBuf (dst src : Nat)
  | assignRead (dst src : Nat)
deriving DecidableEq

inductive Task
  | done
  | threw
  -- `from_descriptor_with_endpoint` of descriptor `j`
  | validate (j : Nat)
  | recheck (b j gen : Nat)
  | undo (b : Nat)
  -- `try_acquire_shared_buffer_reader`
  | acquireLoad (b : Nat) (why : AcquireFor)
  | acquireCas (b : Nat) (value : BitVec 32) (why : AcquireFor)
  -- `reset` of a buffer, `release` of a handle
  | teardown (effects : List Effect) (after : After)
  -- `create_descriptor_with_endpoint` of the buffer in slot `i`
  | storeUid (i : Nat) (s : BufSlot) (d : SharedBufferDescriptor)
  | relayCheck (i : Nat) (s : BufSlot)
  | readClock (i : Nat) (s : BufSlot) (d : SharedBufferDescriptor)
  | storeStamp (i : Nat) (s : BufSlot) (d : SharedBufferDescriptor) (now : Nat)
  /-- The descriptor it returned, `none` for `nullptr`. -/
  | returned (s : BufSlot) (result : Option Nat)
deriving DecidableEq

structure World where
  clock : Nat := 0
  blocks : List PhysBlock := []
  pools : Nat → AllocPc := fun _ => .idle
  descs : List DescRec := []
  /-- `none`: destroyed, or being overwritten. -/
  bufs : List (Option BufSlot) := []
  reads : List (Option ReadSlot) := []
  tasks : List Task := []
  -- history
  /-- The bytes read through imported buffers: descriptor, index, byte. -/
  seen : List (Nat × Nat × UInt8) := []

namespace World
variable (w : World)

def setBlock (b : Nat) (blk : PhysBlock) : World := { w with blocks := w.blocks.set b blk }
def setPool (p : Nat) (pc : AllocPc) : World := { w with pools := Function.update w.pools p pc }
def setBuf (i : Nat) (s : Option BufSlot) : World := { w with bufs := w.bufs.set i s }
def addBuf (s : BufSlot) : World := { w with bufs := w.bufs ++ [some s] }
def setRead (h : Nat) (s : Option ReadSlot) : World := { w with reads := w.reads.set h s }
def addRead (s : ReadSlot) : World := { w with reads := w.reads ++ [some s] }
def setTask (t : Nat) (k : Task) : World := { w with tasks := w.tasks.set t k }
def addTask (k : Task) : World := { w with tasks := w.tasks ++ [k] }
def addDesc (r : DescRec) : World := { w with descs := w.descs ++ [r] }
def addBlock (blk : PhysBlock) : World := { w with blocks := w.blocks ++ [blk] }
def addSeen (x : Nat × Nat × UInt8) : World := { w with seen := x :: w.seen }

/-- The slot holds this very buffer. -/
def holdsBuf (i : Nat) (s : BufSlot) : Prop := w.bufs[i]? = some (some s)

instance (i : Nat) (s : BufSlot) : Decidable (w.holdsBuf i s) :=
  inferInstanceAs (Decidable (_ = _))

end World

namespace PhysBlock

/-- What `create_block` makes, with the UID that `allocate` then draws. -/
def created (p : Nat) (pid nativeHandle : Int) (blockId : UInt32) (size : Nat) (payload : List UInt8)
    (uid : UInt64) : PhysBlock where
  nativeHandle := nativeHandle
  mappedSize := kSharedBufferPayloadOffset + size
  payloadSize := size
  blockId := blockId
  control := { payloadSize := size }
  payload := payload
  currentUid := drawUid uid
  inUse := true
  pool := p
  pid := pid
  draws := [drawUid uid]

variable (blk : PhysBlock)

def withControl (control : SharedBufferControlHeader) : PhysBlock := { blk with control := control }

/-- The block taken for a new generation with UID `uid`. -/
def taken (uid : UInt64) : PhysBlock :=
  { blk with
    inUse := true, currentUid := drawUid uid, gen := blk.gen + 1,
    draws := blk.draws ++ [drawUid uid], published := false }

end PhysBlock

end MemfdBuffer.Atomic
