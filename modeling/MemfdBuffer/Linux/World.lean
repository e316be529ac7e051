import MemfdBuffer.Broker.Registry
import MemfdBuffer.Import.World
import MemfdBuffer.Lib.AddressSpace

/-!
# The pool on Linux

A pool with all that it has of its process: the descriptors of its memfds and of its broker, and the mappings of its
blocks. Every system call may fail, and so may the allocations in the constructors and those that `create_block` guards;
calls that hand out a descriptor or a region come with what they hand out. Other threads open and map for themselves
between the calls of the pool.
-/

namespace MemfdBuffer.Linux

open Import (Failure)

/-- The answers in the constructors down to `FDDispatcher`. -/
structure StartEnv where
  /-- Allocations, and `std::random_device`. -/
  memory : Bool := true
  epollCreate : Option Nat := none
  eventfd : Option Nat := none
  epollCtl : Bool := true
  thread : Bool := true
  message : String := ""
deriving DecidableEq, Repr

/-- The answers in one `create_block`. -/
structure CreateEnv where
  memfdCreate : Option Nat := none
  ftruncate : Bool := true
  /-- Where the mapping starts. -/
  mmap : Option Nat := none
  /-- The block and its place in `all_blocks_` get their memory. -/
  block : Bool := true
  /-- `strerror(errno)`. -/
  message : String := ""
deriving DecidableEq, Repr

structure World where
  /-- The broker with the blocks of the pool; it is alive while the pool is. -/
  broker : Broker := { alive := false }
  space : AddressSpace := []
  /-- The `mapping` of each block. -/
  mappings : List Nat := []
  nextBlockId : UInt32 := 0
  -- history
  /-- What the rest of the process has open and mapped. -/
  others : List Nat := []
  elsewhere : List Region := []
  /-- Descriptors of dispatchers whose constructor threw. -/
  lost : List Nat := []

def pageSize : Nat := 4096

/-- `mmap` and `munmap` work on whole pages. -/
def pages (size : Nat) : Nat := (size + pageSize - 1) / pageSize * pageSize

/-- The end of the addresses that `mmap` hands out. -/
def addressLimit : Nat := 2 ^ 47

namespace World
variable (w : World)

def withTable (t : FdTable KernelObject) : World := { w with broker := { w.broker with table := t } }

/-! ### The platform -/

/-- `create_platform_mapping`: a descriptor and the start of its mapping. -/
def createPlatformMapping (mappedSize : Nat) (e : CreateEnv) : Option (World × Except Exn (Nat × Nat)) :=
  if offMax < mappedSize then
    some (w, .error (.lengthError "shared-memory mapping is too large for ftruncate"))
  else
    match e.memfdCreate with
    | none => some (w, .error (.runtimeError ("memfd_create failed: " ++ e.message)))
    | some fd => do
      let t ← w.broker.table.openAt fd (.memfd w.broker.blocks.length)
      if e.ftruncate = false then
        return (w.withTable (t.close fd),
          .error (.runtimeError ("ftruncate for shared-memory mapping failed: " ++ e.message)))
      else
        match e.mmap with
        | none =>
          return (w.withTable (t.close fd),
            .error (.runtimeError ("mmap for shared-memory mapping failed: " ++ e.message)))
        | some start => do
          let space ← w.space.mmap addressLimit ⟨start, pages mappedSize⟩
          return ({ w.withTable t with space := space }, .ok (fd, start))

/-- `destroy_platform_mapping`. -/
def destroyPlatformMapping (nativeHandle : Int) (mapping mappedSize : Nat) : World :=
  let w := if mapping ≠ 0 ∧ 0 < mappedSize then { w with space := w.space.munmap ⟨mapping, pages mappedSize⟩ } else w
  if 0 ≤ nativeHandle then w.withTable (w.broker.table.close nativeHandle.toNat) else w

/-! ### The pool -/

/-- A new pool over the dispatcher that has these descriptors. -/
def fresh (t : FdTable KernelObject) (running : Bool) (epollFd eventFd : Option Nat) : World :=
  { w with
    broker :=
      { euid := w.broker.euid, pid := w.broker.pid, files := w.broker.files, table := t, running := running,
        epollFd := epollFd, eventFd := eventFd }
    mappings := []
    nextBlockId := 0 }

/-- `SharedBufferMemoryPool()`. The dispatcher does without a thread where it does not get its descriptors; where the
thread does not start, its constructor throws a `std::system_error` and its destructor does not run. -/
def construct (e : StartEnv) : Option (World × Except Failure Unit) :=
  if e.memory = false then some (w, .error .badAlloc)
  else
    match e.epollCreate with
    | none => some (w.fresh w.broker.table false none none, .ok ())
    | some epollFd => do
      let t ← w.broker.table.openAt epollFd .epoll
      match e.eventfd with
      | none => return (w.fresh (t.close epollFd) false none none, .ok ())
      | some eventFd => do
        let t ← t.openAt eventFd .event
        if e.epollCtl = false then return (w.fresh ((t.close eventFd).close epollFd) false none none, .ok ())
        else if e.thread = false then
          return ({ w.withTable t with lost := eventFd :: epollFd :: w.lost }, .error (.exn (.runtimeError e.message)))
        else return (w.fresh t true (some epollFd) (some eventFd), .ok ())

/-- `create_block`. -/
def createBlock (payloadSize : Nat) (e : CreateEnv) : Option (World × Except Failure Nat) :=
  if payloadSize > sizeMax - kSharedBufferPayloadOffset then
    some (w, .error (.exn (.lengthError "shared buffer mapping size overflows size_t")))
  else
    let mappedSize := kSharedBufferPayloadOffset + payloadSize
    let blockId := w.nextBlockId
    let w := { w with nextBlockId := w.nextBlockId + 1 }
    do
      let (w, mapping) ← w.createPlatformMapping mappedSize e
      match mapping with
      | .error x => return (w, .error (.exn x))
      | .ok (nativeHandle, mapping) =>
        if e.block = false then return (w.destroyPlatformMapping nativeHandle mapping mappedSize, .error .badAlloc)
        else
          let block : SharedBufferBlock :=
            { nativeHandle := nativeHandle, mappedSize := mappedSize, payloadSize := payloadSize, blockId := blockId,
              control := { payloadSize := payloadSize }, payload := List.replicate payloadSize 0 }
          return ({ w with
            broker := { w.broker with blocks := w.broker.blocks ++ [block] }
            mappings := w.mappings ++ [mapping] }, .ok w.broker.blocks.length)

/-- `register_block_for_ipc`. -/
def registerBlock (e : RegisterEnv) (b : Nat) : Option (World × Except Exn String) :=
  (w.broker.registerBlock e b).map fun (broker, r) => ({ w with broker := broker }, r)

/-- What `~SharedBufferMemoryPool` does to one block with its mapping. -/
def destroyBlock (item : SharedBufferBlock × Nat) : World :=
  w.destroyPlatformMapping item.1.nativeHandle item.2 item.1.mappedSize

/-- `~SharedBufferMemoryPool`; `order` is the order in which the broker meets its registrations. -/
def destroy (order : List (UInt32 × RegisteredBlock)) : Option World :=
  (w.broker.destroy order).map fun broker =>
    let w := { w with broker := broker }
    let w := (w.broker.blocks.zip w.mappings).foldl destroyBlock w
    { w with broker := { w.broker with blocks := [] }, mappings := [] }

/-- `find_block_for_ptr`, with the addresses as they come out on 64 bits. -/
def findBlockForPtr (ptr : Nat) : Option Nat :=
  if ptr = 0 then none
  else
    (w.broker.blocks.zip w.mappings).findIdx? fun (block, mapping) =>
      let start := (mapping + kSharedBufferPayloadOffset) % 2 ^ 64
      let stop := (mapping + block.mappedSize) % 2 ^ 64
      start ≤ ptr && ptr < stop

end World

inductive Op
  | construct (e : StartEnv)
  | createBlock (payloadSize : Nat) (e : CreateEnv)
  | registerBlock (e : RegisterEnv) (b : Nat)
  | destroy (order : List (UInt32 × RegisteredBlock))
  /-- Another thread opens, closes, maps and unmaps what is its own. -/
  | openOther (n : Nat) (x : KernelObject)
  | closeOther (n : Nat)
  | mapOther (r : Region)
  | unmapOther (r : Region)

def step (w : World) : Op → Option World
  | .construct e => if w.broker.alive then none else (w.construct e).map Prod.fst
  | .createBlock payloadSize e => if w.broker.alive then (w.createBlock payloadSize e).map Prod.fst else none
  | .registerBlock e b => if w.broker.alive then (w.registerBlock e b).map Prod.fst else none
  | .destroy order => if w.broker.alive then w.destroy order else none
  | .openOther n x =>
    (w.broker.table.openAt n x).map fun t => { w.withTable t with others := n :: w.others }
  | .closeOther n =>
    if n ∈ w.others then some { w.withTable (w.broker.table.close n) with others := w.others.erase n } else none
  | .mapOther r =>
    (w.space.mmap addressLimit r).map fun space => { w with space := space, elsewhere := r :: w.elsewhere }
  | .unmapOther r =>
    if r ∈ w.elsewhere then some { w with space := w.space.munmap r, elsewhere := w.elsewhere.erase r } else none

/-- A process that has made no pool; it may have anything else. -/
structure Init (w : World) : Prop where
  others : w.broker.table.Lists w.others
  elsewhere : w.space = w.elsewhere
  space : w.space.Wf addressLimit
  broker : w.broker =
    { euid := w.broker.euid, pid := w.broker.pid, files := w.broker.files, table := w.broker.table, alive := false }
  mappings : w.mappings = []
  lost : w.lost = []

abbrev Reachable (w : World) : Prop := Machine.Reach step Init w

end MemfdBuffer.Linux
