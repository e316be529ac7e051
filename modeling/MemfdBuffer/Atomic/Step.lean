import MemfdBuffer.Atomic.World

/-!
# The actions

One definition for each place where a call can be cut, under the name of what it does there; `step`
dispatches. An action that is not enabled gives `none`.
-/

namespace MemfdBuffer.Atomic
namespace World
variable (w : World)

/-! ### `SharedBufferMemoryPool::allocate` -/

/-- Takes the mutex. -/
def allocBegin (p size : Nat) : Option World :=
  if w.pools p = .idle ∧ 0 < size then some (w.setPool p (.scan size)) else none

/-- `try_claim_block(b)` reads `publish_timestamp_us`. -/
def allocLoad (p b : Nat) : Option World :=
  match w.pools p with
  | .scan size => do
    let blk ← w.blocks[b]?
    if blk.pool = p ∧ blk.inUse = false ∧ blk.payloadSize = size then
      some (w.setPool p (.loaded size b blk.control.publishTimestampUs w.descs.length))
    else none
  | _ => none

/-- It reads the clock and makes the grace test. -/
def allocTest (p : Nat) : Option World :=
  match w.pools p with
  | .loaded size b published made =>
    if withinGrace published w.clock then some (w.setPool p (.scan size))
    else some (w.setPool p (.checked size b published made))
  | _ => none

/-- Its CAS; if it succeeds `allocate` has its block and draws the UID. -/
def allocCas (p : Nat) (uid : UInt64) : Option World :=
  match w.pools p with
  | .checked size b _ _ => do
    let blk ← w.blocks[b]?
    match blk.control.tryClaimReuse with
    | some control =>
      some ((w.setBlock b ((blk.taken uid).withControl control)).setPool p (.chosen b false))
    | none => some (w.setPool p (.scan size))
  | _ => none

/-- `create_block`: a new mapping with a fresh header, not yet known to anyone else. -/
def allocCreate (p : Nat) (pid : Int) (nativeHandle : Int) (blockId : UInt32) (payload : List UInt8)
    (uid : UInt64) : Option World :=
  match w.pools p with
  | .scan size =>
    if payload.length = size ∧ size ≤ sizeMax - kSharedBufferPayloadOffset then
      some ((w.addBlock (.created p pid nativeHandle blockId size payload uid)).setPool p
        (.chosen w.blocks.length true))
    else none
  | _ => none

/-- `create_block` throws. -/
def allocThrow (p : Nat) : Option World :=
  match w.pools p with
  | .scan _ => some (w.setPool p .idle)
  | _ => none

def allocStoreUid (p : Nat) : Option World :=
  match w.pools p with
  | .chosen b fresh => do
    let blk ← w.blocks[b]?
    some ((w.setBlock b (blk.withControl { blk.control with ipcUid := 0 })).setPool p
      (.uidCleared b fresh))
  | _ => none

def allocStoreStamp (p : Nat) : Option World :=
  match w.pools p with
  | .uidCleared b fresh => do
    let blk ← w.blocks[b]?
    some ((w.setBlock b (blk.withControl { blk.control with publishTimestampUs := 0 })).setPool p
      (.stampCleared b fresh))
  | _ => none

/-- `release_shared_buffer_reuse_claim`; `allocate` returns and `allocate_raw` wraps the block. -/
def allocDropClaim (p : Nat) : Option World :=
  match w.pools p with
  | .stampCleared b _ => do
    let blk ← w.blocks[b]?
    some (((w.setBlock b
      { blk with control := blk.control.releaseReuseClaim, ready := true }).setPool p .idle).addBuf
        { buf := .allocated b blk.toSharedBufferBlock blk.payloadSize, gen := blk.gen })
  | _ => none

/-! ### Calls begin -/

/-- `from_descriptor_with_endpoint` on the descriptor `j`. -/
def beginImport (j : Nat) : Option World := do
  let r ← w.descs[j]?
  match checkDescriptor r.d with
  | .ok _ => some (w.addTask (.validate j))
  | .error _ => some (w.addTask .threw)

/-- `get_read_handle`; no lease is taken where there is no header. -/
def beginRead (i : Nat) : Option World := do
  let s ← (← w.bufs[i]?)
  match s.buf.control with
  | some b => some (w.addTask (.acquireLoad b (.reading i s)))
  | none =>
    some (w.addRead { handle := { dataPtr := s.buf.dataPtr, owner := s.buf.owner }, gen := s.gen })

/-- `hold_reader_reference`. -/
def beginHold (i : Nat) : Option World := do
  let s ← (← w.bufs[i]?)
  match s.buf.heldReaderLease, s.buf.control with
  | none, some b => some (w.addTask (.acquireLoad b (.holding i s)))
  | _, _ => some w

/-- `create_descriptor_with_endpoint` of a buffer of the own pool, up to `mark_published`: the broker
answers with the path of the first registration, or registers the block under `ipcName`; without a path
the call returns `nullptr`. -/
def beginPublish (i : Nat) (ipcName : String) : Option World := do
  let s ← (← w.bufs[i]?)
  let b ← s.buf.dataPtr
  let blk ← w.blocks[b]?
  if s.buf.hasIpcDescriptor = false ∧ s.buf.deleter = .poolFree b then
    let name := if blk.socketPath = "" then ipcName else blk.socketPath
    if name = "" then some (w.addTask (.returned s none))
    else
      some ((w.setBlock b { blk with socketPath := name }).addTask
        (.storeUid i s
          (ownerDescriptor s.buf.size blk.pid blk.toSharedBufferBlock name blk.currentUid)))
  else none

/-- `create_descriptor_with_endpoint` of a buffer that is not of the own pool: imported, or without
memory, where the owner's path finds no block and the call returns `nullptr`. -/
def beginRelay (i : Nat) : Option World := do
  let s ← (← w.bufs[i]?)
  if s.buf.hasIpcDescriptor then some (w.addTask (.relayCheck i s))
  else if s.buf.dataPtr = none then some (w.addTask (.returned s none))
  else none

/-- A default constructed `SharedBuffer`. -/
def newBuf : Option World := some (w.addBuf { buf := {} })

def moveBuf (i : Nat) : Option World := do
  let s ← (← w.bufs[i]?)
  some ((w.setBuf i (some { buf := s.buf.moveFrom.2 })).addBuf { s with buf := s.buf.moveFrom.1 })

/-- `dst = std::move(src)`: the transfer follows the `reset` of the target. -/
def assignBuf (dst src : Nat) : Option World := do
  let s ← (← w.bufs[dst]?)
  if dst ≠ src then
    some ((w.setBuf dst none).addTask (.teardown s.buf.resetEffects (.assignBuf dst src)))
  else none

def destroyBuf (i : Nat) : Option World := do
  let s ← (← w.bufs[i]?)
  some ((w.setBuf i none).addTask (.teardown s.buf.resetEffects .destroyed))

def moveRead (h : Nat) : Option World := do
  let s ← (← w.reads[h]?)
  some ((w.setRead h (some { handle := {} })).addRead s)

def assignRead (dst src : Nat) : Option World := do
  let s ← (← w.reads[dst]?)
  if dst ≠ src then
    some ((w.setRead dst none).addTask (.teardown s.handle.releaseEffects (.assignRead dst src)))
  else none

def destroyRead (h : Nat) : Option World := do
  let s ← (← w.reads[h]?)
  some ((w.setRead h none).addTask (.teardown s.handle.releaseEffects .destroyed))

/-! ### Payload bytes -/

/-- The publisher writes only between `allocate` and the first `mark_published`. -/
def writeByte (i k : Nat) (v : UInt8) : Option World := do
  let s ← (← w.bufs[i]?)
  let b ← s.buf.dataPtr
  let blk ← w.blocks[b]?
  if s.buf.deleter = .poolFree b ∧ blk.published = false ∧ k < blk.payload.length then
    some (w.setBlock b { blk with payload := blk.payload.set k v })
  else none

/-- One byte read through an imported buffer. -/
def readByte (i k : Nat) : Option World := do
  let s ← (← w.bufs[i]?)
  let j ← s.src
  let b ← s.buf.dataPtr
  let blk ← w.blocks[b]?
  let v ← blk.payload[k]?
  some (w.addSeen (j, k, v))

/-- One byte read through a `ReadHandle` of an imported buffer. -/
def readByteVia (h k : Nat) : Option World := do
  let s ← (← w.reads[h]?)
  let j ← s.src
  let b ← s.handle.dataPtr
  let blk ← w.blocks[b]?
  let v ← blk.payload[k]?
  some (w.addSeen (j, k, v))

/-! ### Calls go on -/

/-- `validate_mapping` on the mapping of the descriptor's block. -/
def validate (t j : Nat) : Option World := do
  let r ← w.descs[j]?
  let blk ← w.blocks[r.blk]?
  match validateMapping blk.control blk.mappedSize r.d.sharedBufferBlockSize r.d.size r.d.ipcUid with
  | .ok _ => some (w.setTask t (.acquireLoad r.blk (.importing j)))
  | .error _ => some (w.setTask t .threw)

def acquireLoad (t b : Nat) (why : AcquireFor) : Option World := do
  let blk ← w.blocks[b]?
  some (w.setTask t (.acquireCas b blk.control.readerState why))

/-- The reader is counted. -/
def acquired (t b gen : Nat) : AcquireFor → Option World
  | .importing j => some (w.setTask t (.recheck b j gen))
  | .reading i s =>
    if w.holdsBuf i s then
      some ((w.addRead
        { handle := { dataPtr := s.buf.dataPtr, state := s.buf.handleState, readerLease := some b,
                      owner := s.buf.owner }
          gen := s.gen, src := s.src }).setTask t .done)
    else none
  | .holding i s =>
    if w.holdsBuf i s then
      some ((w.setBuf i (some { s with buf := s.buf.withLease (some b) })).setTask
        t .done)
    else none

/-- The test and the weak CAS of the acquire loop; it may fail spuriously. -/
def acquireCas (t b : Nat) (value : BitVec 32) (why : AcquireFor) (spurious : Bool) :
    Option World := do
  let blk ← w.blocks[b]?
  if readerRefused value then some (w.setTask t .threw)
  else if blk.control.readerState = value ∧ spurious = false then
    (w.setBlock b (blk.withControl { blk.control with readerState := value + 1#32 })).acquired
      t b blk.gen why
  else some (w.setTask t (.acquireCas b blk.control.readerState why))

/-- The UID check after the acquire; on success the buffer is built. -/
def recheck (t b j gen : Nat) : Option World := do
  let r ← w.descs[j]?
  let blk ← w.blocks[b]?
  if blk.control.ipcUid = r.d.ipcUid then
    some ((w.addBuf { buf := .imported b r.d, gen := gen, src := some j }).setTask t .done)
  else some (w.setTask t (.undo b))

def undo (t b : Nat) : Option World := do
  let blk ← w.blocks[b]?
  some ((w.setBlock b (blk.withControl blk.control.releaseReader)).setTask t .threw)

/-- One effect; `SharedBufferMemoryPool::free` needs the pool's mutex. -/
def runEffect : Effect → Option World
  | .releaseReader b => do
    let blk ← w.blocks[b]?
    some (w.setBlock b (blk.withControl blk.control.releaseReader))
  | .poolFree b => do
    let blk ← w.blocks[b]?
    if w.pools blk.pool = .idle then some (w.setBlock b { blk with inUse := false }) else none
  | .custom _ => some w

/-- The transfer of a move assignment, once the target is torn down. -/
def finish (t : Nat) : After → Option World
  | .destroyed => some (w.setTask t .done)
  | .assignBuf dst src => do
    let s ← (← w.bufs[src]?)
    if w.bufs[dst]? = some none then
      some (((w.setBuf dst (some { s with buf := s.buf.moveFrom.1 })).setBuf src
        (some { buf := s.buf.moveFrom.2 })).setTask t .done)
    else none
  | .assignRead dst src => do
    let s ← (← w.reads[src]?)
    if w.reads[dst]? = some none then
      some (((w.setRead dst (some s)).setRead src (some { handle := {} })).setTask t .done)
    else none

/-- `mark_published` stores the UID. -/
def storeUid (t i : Nat) (s : BufSlot) (d : SharedBufferDescriptor) : Option World := do
  let b ← s.buf.control
  let blk ← w.blocks[b]?
  if w.holdsBuf i s then
    some ((w.setBlock b
      { blk with control := { blk.control with ipcUid := blk.currentUid }, published := true }).setTask
        t (.readClock i s d))
  else none

/-- The relay path's test of the header. -/
def relayCheck (t i : Nat) (s : BufSlot) : Option World := do
  let b ← s.buf.control
  let blk ← w.blocks[b]?
  if w.holdsBuf i s then
    if relayAccepts s.buf blk.control then some (w.setTask t (.readClock i s (relayDescriptor s.buf)))
    else some (w.setTask t (.returned s none))
  else none

/-- `refresh_publish_timestamp` reads the clock. -/
def readClock (t i : Nat) (s : BufSlot) (d : SharedBufferDescriptor) : Option World :=
  if w.holdsBuf i s then some (w.setTask t (.storeStamp i s d w.clock)) else none

/-- It stores the stamp, and the descriptor is returned. -/
def storeStamp (t i : Nat) (s : BufSlot) (d : SharedBufferDescriptor) (now : Nat) :
    Option World := do
  let b ← s.buf.control
  let blk ← w.blocks[b]?
  if w.holdsBuf i s then
    some (((w.setBlock b
      (blk.withControl { blk.control with publishTimestampUs := now })).addDesc
        { d := d, blk := b, gen := s.gen, time := w.clock, bytes := blk.payload, parent := s.src }).setTask t
          (.returned s (some w.descs.length)))
  else none

/-- The next access of task `t`. -/
def stepTask (t : Nat) (spurious : Bool) : Option World := do
  match ← w.tasks[t]? with
  | .done | .threw | .returned _ _ => none
  | .validate j => w.validate t j
  | .recheck b j gen => w.recheck t b j gen
  | .undo b => w.undo t b
  | .acquireLoad b why => w.acquireLoad t b why
  | .acquireCas b value why => w.acquireCas t b value why spurious
  | .teardown [] after => w.finish t after
  | .teardown (e :: es) after => (w.runEffect e).map fun w' => w'.setTask t (.teardown es after)
  | .storeUid i s d => w.storeUid t i s d
  | .relayCheck i s => w.relayCheck t i s
  | .readClock i s d => w.readClock t i s d
  | .storeStamp i s d now => w.storeStamp t i s d now

end World

inductive Act
  | tick (us : Nat)
  | allocBegin (p size : Nat)
  | allocLoad (p b : Nat)
  | allocTest (p : Nat)
  | allocCas (p : Nat) (uid : UInt64)
  | allocCreate (p : Nat) (pid nativeHandle : Int) (blockId : UInt32) (payload : List UInt8)
      (uid : UInt64)
  | allocThrow (p : Nat)
  | allocStoreUid (p : Nat)
  | allocStoreStamp (p : Nat)
  | allocDropClaim (p : Nat)
  | beginImport (j : Nat)
  | beginRead (i : Nat)
  | beginHold (i : Nat)
  | beginPublish (i : Nat) (ipcName : String)
  | beginRelay (i : Nat)
  | newBuf
  | moveBuf (i : Nat)
  | assignBuf (dst src : Nat)
  | destroyBuf (i : Nat)
  | moveRead (h : Nat)
  | assignRead (dst src : Nat)
  | destroyRead (h : Nat)
  | writeByte (i k : Nat) (v : UInt8)
  | readByte (i k : Nat)
  | readByteVia (h k : Nat)
  | task (t : Nat) (spurious : Bool)
deriving DecidableEq

open World in
def step (w : World) : Act → Option World
  | .tick us => some { w with clock := w.clock + us }
  | .allocBegin p size => w.allocBegin p size
  | .allocLoad p b => w.allocLoad p b
  | .allocTest p => w.allocTest p
  | .allocCas p uid => w.allocCas p uid
  | .allocCreate p pid fd blockId payload uid => w.allocCreate p pid fd blockId payload uid
  | .allocThrow p => w.allocThrow p
  | .allocStoreUid p => w.allocStoreUid p
  | .allocStoreStamp p => w.allocStoreStamp p
  | .allocDropClaim p => w.allocDropClaim p
  | .beginImport j => w.beginImport j
  | .beginRead i => w.beginRead i
  | .beginHold i => w.beginHold i
  | .beginPublish i ipcName => w.beginPublish i ipcName
  | .beginRelay i => w.beginRelay i
  | .newBuf => w.newBuf
  | .moveBuf i => w.moveBuf i
  | .assignBuf dst src => w.assignBuf dst src
  | .destroyBuf i => w.destroyBuf i
  | .moveRead h => w.moveRead h
  | .assignRead dst src => w.assignRead dst src
  | .destroyRead h => w.destroyRead h
  | .writeByte i k v => w.writeByte i k v
  | .readByte i k => w.readByte i k
  | .readByteVia h k => w.readByteVia h k
  | .task t spurious => w.stepTask t spurious

/-- Nothing allocated, nothing running; the clock may show any time. -/
def Initial (w : World) : Prop := ∃ clock, w = { clock := clock }

/-- The worlds of all runs. -/
abbrev Reachable : World → Prop := Machine.Reach step Initial

end MemfdBuffer.Atomic
