import MemfdBuffer.Atomic.Keeps

/-!
# The invariant of the shared memory

For a block: `Balanced` links the reader word, the claim bit and the references, over the three
phases of an `allocate` on it; `BlockOk` adds the header and the visible UID. For the objects: what
each one says about the block and the descriptor it refers to. An object never mentions another
process's control flow; that its block cannot be recycled under it is `Pinned` (`Inv.pinned`).
-/

namespace MemfdBuffer.Atomic

/-- The reader word against the references and the owners, by what `allocate` does to the block. -/
inductive Balanced (value : BitVec 32) (ready inUse : Bool) : Option Taking → Nat → Nat → Prop
  | counted {refs owners : Nat} (hr : Readers value refs) (hready : ready = true)
      (ho : owners = if inUse then 1 else 0) : Balanced value ready inUse none refs owners
  | claimed {cleared : Bool} (hr : value = kSharedBufferReuseClaimed) (hready : ready = true)
      (hu : inUse = true) : Balanced value ready inUse (some ⟨false, cleared⟩) 0 0
  | fresh {cleared : Bool} (hr : value = 0#32) (hready : ready = false) (hu : inUse = true) :
      Balanced value ready inUse (some ⟨true, cleared⟩) 0 0

/-- The parts of a block that depend on nothing else. -/
structure Recorded (blk : PhysBlock) : Prop where
  describes : blk.control.describes blk.payloadSize = true
  mapped : blk.mappedSize = kSharedBufferPayloadOffset + blk.payloadSize
  length : blk.payload.length = blk.payloadSize
  draws : blk.draws.length = blk.gen + 1
  current : blk.draws[blk.gen]? = some blk.currentUid
  nonzero : ∀ u ∈ blk.draws, u ≠ 0

/-- The visible UID is that of the published generation, or `0`; an `allocate` under way may find the
UID of the generation before. -/
inductive Visible (uid current : UInt64) (published : Bool) : Option Taking → Prop
  | zero {phase : Option Taking} (hu : uid = 0) (hp : phase ≠ none → published = false) :
      Visible uid current published phase
  | current (hu : uid = current) (hp : published = true) : Visible uid current published none
  | before {fresh : Bool} (hp : published = false) :
      Visible uid current published (some ⟨fresh, false⟩)

structure BlockOk (w : World) (b : Nat) (blk : PhysBlock) : Prop where
  balanced : Balanced blk.control.readerState blk.ready blk.inUse (w.phase b blk) (w.refs b) (w.owners b)
  recorded : Recorded blk
  visible : Visible blk.control.ipcUid blk.currentUid blk.published (w.phase b blk)

/-- `d` describes the generation `gen` of `blk`. -/
structure Canon (blk : PhysBlock) (gen : Nat) (d : SharedBufferDescriptor) : Prop where
  path : blk.socketPath ≠ ""
  uid : blk.draws[gen]? = some d.ipcUid
  eq : d = ownerDescriptor blk.payloadSize blk.pid blk.toSharedBufferBlock blk.socketPath d.ipcUid

structure DescOk (w : World) (r : DescRec) (blk : PhysBlock) : Prop where
  block : w.blocks[r.blk]? = some blk
  ready : blk.ready = true
  canon : Canon blk r.gen r.d
  /-- While the generation lasts it is published, with these bytes. -/
  bytes : blk.gen = r.gen → blk.published = true ∧ r.bytes = blk.payload
  parent : ∀ j, r.parent = some j → ∃ q, w.descs[j]? = some q ∧ q.blk = r.blk ∧ q.d = r.d

/-- An import of `r` into generation `gen` of `b` holds a reader there. -/
structure ImportOk (w : World) (b gen : Nat) (r : DescRec) (blk : PhysBlock) : Prop where
  block : w.blocks[b]? = some blk
  ready : blk.ready = true
  gen : gen = blk.gen
  uid : blk.control.ipcUid = r.d.ipcUid
  blk : r.blk = b
  check : Described r.d

inductive BufOk (w : World) (s : BufSlot) : Prop
  | empty (h : s = { buf := {} })
  | own (b : Nat) (blk : PhysBlock) (lease : Option Nat) (hb : w.blocks[b]? = some blk)
      (hready : blk.ready = true) (hl : lease = none ∨ lease = some b)
      (h : s = { buf := (SharedBuffer.allocated b blk.toSharedBufferBlock blk.payloadSize).withLease lease,
                 gen := blk.gen })
  | imported (b j : Nat) (r : DescRec) (blk : PhysBlock) (lease : Option Nat)
      (hj : w.descs[j]? = some r) (hi : ImportOk w b s.gen r blk) (hl : lease = none ∨ lease = some b)
      (h : s = { buf := (SharedBuffer.imported b r.d).withLease lease, gen := s.gen, src := some j })

inductive ReadOk (w : World) (s : ReadSlot) : Prop
  | empty (h : s = { handle := {} })
  | leased (b : Nat) (blk : PhysBlock) (owner : Option Nat) (hb : w.blocks[b]? = some blk)
      (hready : blk.ready = true) (hg : s.gen = blk.gen)
      (h : s.handle = { dataPtr := some b, readerLease := some b, owner := owner })
      (hs : ∀ j, s.src = some j → ∃ r, w.descs[j]? = some r ∧ ImportOk w b s.gen r blk)

/-- The effect refers to a block that was handed out. -/
def EffectOk (w : World) : Effect → Prop
  | .releaseReader b | .poolFree b => ∃ blk, w.blocks[b]? = some blk ∧ blk.ready = true
  | .custom _ => True

/-- What is known while a reader of `b` is acquired. -/
structure WhyOk (w : World) (b : Nat) (why : AcquireFor) : Prop where
  ready : ∃ blk, w.blocks[b]? = some blk ∧ blk.ready = true
  why : match why with
    | .importing j => ∃ r, w.descs[j]? = some r ∧ r.blk = b ∧ Described r.d
    | .reading _ s => s.buf.control = some b
    | .holding _ s => s.buf.control = some b ∧ s.buf.heldReaderLease = none

/-- The descriptor a publication or a relay is about to return. -/
structure Pending (w : World) (s : BufSlot) (d : SharedBufferDescriptor) (b : Nat)
    (blk : PhysBlock) : Prop where
  control : s.buf.control = some b
  block : w.blocks[b]? = some blk
  canon : Canon blk s.gen d
  src : ∀ j, s.src = some j → ∃ q, w.descs[j]? = some q ∧ q.blk = b ∧ q.d = d

/-- As `Pending`, with the UID stored. -/
structure Stamping (w : World) (s : BufSlot) (d : SharedBufferDescriptor) (b : Nat)
    (blk : PhysBlock) : Prop extends Pending w s d b blk where
  published : blk.gen = s.gen → blk.published = true

def TaskOk (w : World) : Task → Prop
  | .done | .threw => True
  | .validate j => ∃ r, w.descs[j]? = some r ∧ Described r.d
  | .recheck b j gen => ∃ r blk, w.descs[j]? = some r ∧ r.blk = b ∧ Described r.d ∧
      w.blocks[b]? = some blk ∧ blk.ready = true ∧ gen = blk.gen
  | .undo b => ∃ blk, w.blocks[b]? = some blk ∧ blk.ready = true
  | .acquireLoad b why | .acquireCas b _ why => WhyOk w b why
  | .teardown es _ => ∀ e ∈ es, EffectOk w e
  | .storeUid _ s d => s.src = none ∧ ∃ b blk, Pending w s d b blk
  | .relayCheck _ s => s.buf.hasIpcDescriptor = true
  | .readClock _ s d | .storeStamp _ s d _ => ∃ b blk, Stamping w s d b blk
  | .returned s none => s.src = none
  | .returned s (some k) => ∃ r, w.descs[k]? = some r ∧ s.buf.control = some r.blk ∧ r.gen = s.gen ∧
      r.parent = s.src

def PcOk (w : World) (p : Nat) : AllocPc → Prop
  | .idle | .scan _ => True
  | .loaded _ b _ _ | .checked _ b _ _ =>
    ∃ blk, w.blocks[b]? = some blk ∧ blk.pool = p ∧ blk.inUse = false
  | .chosen b _ | .uidCleared b _ | .stampCleared b _ =>
    ∃ blk, w.blocks[b]? = some blk ∧ blk.pool = p

structure Inv (w : World) : Prop where
  blocks : ∀ b blk, w.blocks[b]? = some blk → BlockOk w b blk
  pools : ∀ p, PcOk w p (w.pools p)
  descs : ∀ (j : Nat) r, w.descs[j]? = some r → ∃ blk, DescOk w r blk
  bufs : ∀ i s, w.holdsBuf i s → BufOk w s
  reads : ∀ (h : Nat) s, w.reads[h]? = some (some s) → ReadOk w s
  tasks : ∀ (t : Nat) k, w.tasks[t]? = some k → TaskOk w k

end MemfdBuffer.Atomic
