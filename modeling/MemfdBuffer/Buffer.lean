import MemfdBuffer.Header

/-!
# Blocks, descriptors, buffers and handles

The objects of `shared_buffer`. A pointer into shared memory is the number of the block it points
into (`none`: the null pointer); a block carries its header and payload, which every process that
maps it sees. A `shared_ptr` to a `HandleState` is the number of that state.
-/

namespace MemfdBuffer

/-- A block of the publisher's pool with the memory it maps. -/
structure SharedBufferBlock where
  nativeHandle : Int := -1
  mappedSize : Nat := 0
  payloadSize : Nat := 0
  blockId : UInt32 := 0
  control : SharedBufferControlHeader := {}
  payload : List UInt8 := []
  currentUid : UInt64 := 0
  socketPath : String := ""
  inUse : Bool := false
deriving DecidableEq, Repr

/-- The draw of `uid_dist_`, with the guard against `0`. -/
def drawUid (uid : UInt64) : UInt64 := if uid = 0 then 1 else uid

theorem drawUid_ne_zero (uid : UInt64) : drawUid uid ≠ 0 := by
  unfold drawUid
  split
  · decide
  · assumption

/-- `SharedBufferDescriptor.msg`. -/
structure SharedBufferDescriptor where
  size : Nat
  elementTypeName : String
  sharedBufferPid : Int
  sharedBufferBlockId : UInt32
  sharedBufferBlockSize : Nat
  sharedBufferSocketPath : String
  ipcUid : UInt64
deriving DecidableEq, Repr

/-- `typeid(std::uint8_t).name()`. -/
def uint8TypeName : String := "h"

/-- What a `deleter_` does. -/
inductive Deleter
  | empty
  /-- The lambda without effect that the constructor puts in place of an empty function. -/
  | noop
  /-- `SharedBufferMemoryPool::deleter(block)`. -/
  | poolFree (block : Nat)
  /-- `[imported](uint8_t *) {imported->release_reader();}`. -/
  | releaseReader (block : Nat)
  /-- A caller's own function. -/
  | custom (tag : Nat)
deriving DecidableEq, Repr

structure SharedBuffer where
  dataPtr : Option Nat := none
  size : Nat := 0
  deleter : Deleter := .empty
  control : Option Nat := none
  owner : Option Nat := none
  heldReaderLease : Option Nat := none
  handleState : Option Nat := none
  blockId : UInt32 := 0
  mappedSize : Nat := 0
  writable : Bool := true
  ipcPid : Int := 0
  ipcName : String := ""
  ipcUid : UInt64 := 0
deriving DecidableEq, Repr

structure SharedBufferImpl where
  size : Nat := 0
  sharedBuffer : SharedBuffer := {}
deriving DecidableEq, Repr

inductive HandleState.State
  | unset
  | inUse
  | finalized
deriving DecidableEq, Repr

structure HandleState where
  state : HandleState.State := .unset
  activeReaders : Nat := 0
deriving DecidableEq, Repr

structure ReadHandle where
  dataPtr : Option Nat := none
  state : Option Nat := none
  readerLease : Option Nat := none
  owner : Option Nat := none
  promotedBuffer : Option SharedBufferImpl := none
deriving DecidableEq, Repr

structure WriteHandle where
  dataPtr : Option Nat := none
  state : Option Nat := none
  owner : Option Nat := none
deriving DecidableEq, Repr

/-- What tearing down an object does outside the object, one entry per call that leaves it. -/
inductive Effect
  | releaseReader (block : Nat)
  | poolFree (block : Nat)
  | custom (tag : Nat)
deriving DecidableEq, Repr

/-- Running a deleter. -/
def Deleter.effects : Deleter → List Effect
  | .empty | .noop => []
  | .poolFree b => [.poolFree b]
  | .releaseReader b => [.releaseReader b]
  | .custom n => [.custom n]

/-- Dropping a reader lease. -/
def leaseEffects (lease : Option Nat) : List Effect :=
  lease.toList.map .releaseReader

@[simp] theorem leaseEffects_none : leaseEffects none = [] := rfl

@[simp] theorem leaseEffects_some (b : Nat) : leaseEffects (some b) = [.releaseReader b] := rfl

namespace SharedBuffer

def hasIpcDescriptor (buffer : SharedBuffer) : Bool :=
  decide (buffer.ipcPid > 0) && buffer.ipcName != "" && buffer.ipcUid != 0

/-- What `reset` does outside the buffer, in its order: the held lease first, then the deleter if
there is a payload. -/
def resetEffects (buffer : SharedBuffer) : List Effect :=
  leaseEffects buffer.heldReaderLease ++
    if buffer.dataPtr.isSome then buffer.deleter.effects else []

/-- The fields `reset` leaves behind. -/
def resetFields (buffer : SharedBuffer) : SharedBuffer :=
  { buffer with
    heldReaderLease := none, handleState := none, owner := none, dataPtr := none, size := 0,
    control := none, blockId := 0, mappedSize := 0, writable := true, ipcPid := 0, ipcName := "",
    ipcUid := 0, deleter := .empty }

/-- The field transfer of the move constructor and of move assignment: the target, and `other` as
it is left. A moved-from `shared_ptr`, `std::function` or `std::string` is empty. -/
def moveFrom (other : SharedBuffer) : SharedBuffer × SharedBuffer :=
  ({ dataPtr := other.dataPtr, size := other.size, deleter := other.deleter,
     control := other.control, owner := other.owner, heldReaderLease := other.heldReaderLease,
     handleState := other.handleState, blockId := other.blockId, mappedSize := other.mappedSize,
     writable := other.writable, ipcPid := other.ipcPid, ipcName := other.ipcName,
     ipcUid := other.ipcUid },
   { other with
     dataPtr := none, size := 0, control := none, blockId := 0, mappedSize := 0, writable := true,
     ipcPid := 0, ipcUid := 0, deleter := .empty, owner := none, heldReaderLease := none,
     handleState := none, ipcName := "" })

/-- The buffer with its `held_reader_lease_` replaced. -/
def withLease (buffer : SharedBuffer) (lease : Option Nat) : SharedBuffer :=
  { buffer with heldReaderLease := lease }

/-- The constructor: the null test, and the stand-in for an empty deleter. -/
def construct (payload : Option Nat) (size : Nat) (deleter : Deleter) (control owner : Option Nat)
    (blockId : UInt32) (mappedSize : Nat) (writable : Bool) (ipcPid : Int) (ipcName : String)
    (ipcUid : UInt64) : Except Exn SharedBuffer :=
  if payload.isNone && size != 0 then
    .error (.invalidArgument "SharedBuffer payload must not be null")
  else
    .ok { dataPtr := payload, size := size,
          deleter := if deleter = .empty then .noop else deleter, control := control,
          owner := owner, blockId := blockId, mappedSize := mappedSize, writable := writable,
          ipcPid := ipcPid, ipcName := ipcName, ipcUid := ipcUid }

/-- The buffer `allocate_raw` wraps around a block of the pool. -/
def allocated (b : Nat) (block : SharedBufferBlock) (bytes : Nat) : SharedBuffer :=
  { dataPtr := some b, size := bytes, deleter := .poolFree b, control := some b,
    blockId := block.blockId, mappedSize := block.mappedSize }

theorem construct_allocated (b : Nat) (block : SharedBufferBlock) (bytes : Nat) :
    construct (some b) bytes (.poolFree b) (some b) none block.blockId block.mappedSize true 0 "" 0 =
      .ok (allocated b block bytes) := rfl

/-- The buffer `from_descriptor_with_endpoint` wraps around the imported block `b`. -/
def imported (b : Nat) (d : SharedBufferDescriptor) : SharedBuffer :=
  { dataPtr := some b, size := d.size, deleter := .releaseReader b, control := some b,
    owner := some b, blockId := d.sharedBufferBlockId, mappedSize := d.sharedBufferBlockSize,
    writable := false, ipcPid := d.sharedBufferPid, ipcName := d.sharedBufferSocketPath,
    ipcUid := d.ipcUid }

theorem construct_imported (b : Nat) (d : SharedBufferDescriptor) :
    construct (some b) d.size (.releaseReader b) (some b) (some b) d.sharedBufferBlockId
      d.sharedBufferBlockSize false d.sharedBufferPid d.sharedBufferSocketPath d.ipcUid =
      .ok (imported b d) := rfl

theorem moveFrom_eq (other : SharedBuffer) : other.moveFrom = (other, {}) := rfl

theorem resetFields_eq (buffer : SharedBuffer) : buffer.resetFields = {} := rfl

@[simp] theorem resetEffects_allocated {b bytes : Nat} {block : SharedBufferBlock} {lease : Option Nat} :
    ((allocated b block bytes).withLease lease).resetEffects = leaseEffects lease ++ [.poolFree b] := rfl

@[simp] theorem resetEffects_imported {b : Nat} {d : SharedBufferDescriptor} {lease : Option Nat} :
    ((imported b d).withLease lease).resetEffects = leaseEffects lease ++ [.releaseReader b] := rfl

@[simp] theorem resetEffects_default : resetEffects {} = [] := rfl

@[simp] theorem hasIpcDescriptor_default : hasIpcDescriptor {} = false := rfl

end SharedBuffer

namespace ReadHandle

/-- What `release` does outside the handle and its `HandleState`: the reader lease, then the
promoted buffer. -/
def releaseEffects (handle : ReadHandle) : List Effect :=
  leaseEffects handle.readerLease ++
    match handle.promotedBuffer with
    | some impl => impl.sharedBuffer.resetEffects
    | none => []

@[simp] theorem releaseEffects_default : releaseEffects {} = [] := rfl

end ReadHandle

end MemfdBuffer
