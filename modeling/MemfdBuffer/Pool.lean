import MemfdBuffer.Buffer
import MemfdBuffer.Lib.SwapRemove

/-!
# The memory pool, call by call

`SharedBufferMemoryPool` with its calls as functions of the whole pool: each runs under the pool's
mutex, so no two of one process interleave. What may interleave are other processes, who reach the
headers of registered blocks through their own mappings; their actions are the lists of `Outside` that
an `allocate` meets before each of its accesses. A pointer to a block is its index in `all_blocks_`.
-/

namespace MemfdBuffer

open SwapRemove

namespace SharedBufferBlock

def withControl (block : SharedBufferBlock) (control : SharedBufferControlHeader) : SharedBufferBlock :=
  { block with control := control }

end SharedBufferBlock

/-- An access of another process to a header. -/
inductive Outside
  | acquire (b : Nat)
  | release (b : Nat)
  /-- A relay stamps the header. -/
  | refresh (b now : Nat)
deriving DecidableEq, Repr

def Outside.block : Outside → Nat
  | .acquire b | .release b | .refresh b _ => b

/-- Its effect on the block and on the number of readers held outside. A process gets at the header of a
registered block only, and releases and stamps as a reader. -/
def Outside.on (block : SharedBufferBlock) (readers : Nat) : Outside → SharedBufferBlock × Nat
  | .acquire _ =>
    if block.socketPath = "" ∨ readerRefused block.control.readerState = true then (block, readers)
    else (block.withControl { block.control with readerState := block.control.readerState + 1#32 },
      readers + 1)
  | .release _ =>
    if readers = 0 then (block, readers)
    else (block.withControl block.control.releaseReader, readers - 1)
  | .refresh _ now =>
    if readers = 0 then (block, readers)
    else (block.withControl { block.control with publishTimestampUs := now }, readers)

/-- `/tmp/shared_buffer_<euid>_<pid>_<block_id>_<fd>.sock`. -/
def blockSocketPath (euid : Nat) (pid : Int) (blockId : UInt32) (nativeHandle : Int) : String :=
  "/tmp/shared_buffer_" ++ toString euid ++ "_" ++ toString pid ++ "_" ++ toString blockId.toNat ++ "_" ++
    toString nativeHandle ++ ".sock"

structure Pool where
  allBlocks : List SharedBufferBlock := []
  freeBlocks : Nat → Option (List (Option Nat)) := fun _ => none
  nextBlockId : UInt32 := 0
  /-- The broker's `registered_blocks`, by block ID. -/
  registeredBlocks : UInt32 → Option String := fun _ => none
  -- history
  /-- The readers that other processes hold; they release only these. -/
  outside : Nat → Nat := fun _ => 0

/-- What happens around the claim attempt on one entry. -/
structure Attempt where
  beforeLoad : List Outside := []
  now : Nat := 0
  beforeCas : List Outside := []

/-- What an `allocate` finds outside the pool. -/
structure AllocEnv where
  attempt : Nat → Attempt := fun _ => {}
  /-- The outcome of the system calls in `create_platform_mapping`. -/
  mapping : Except Exn Int := .ok 0
  uid : UInt64 := 1
  beforeUid : List Outside := []
  beforeStamp : List Outside := []
  beforeDrop : List Outside := []

/-- `std::numeric_limits<off_t>::max()`. -/
def offMax : Nat := 2 ^ 63 - 1

namespace Pool
variable (pool : Pool)

def modifyBlock (b : Nat) (f : SharedBufferBlock → SharedBufferBlock) : Pool :=
  match pool.allBlocks[b]? with
  | some block => { pool with allBlocks := pool.allBlocks.set b (f block) }
  | none => pool

def modifyControl (b : Nat) (f : SharedBufferControlHeader → SharedBufferControlHeader) : Pool :=
  pool.modifyBlock b fun block => block.withControl (f block.control)

def setBucket (payloadSize : Nat) (entries : Option (List (Option Nat))) : Pool :=
  { pool with freeBlocks := Function.update pool.freeBlocks payloadSize entries }

/-- One access from outside. -/
def outsideStep (act : Outside) : Pool :=
  match pool.allBlocks[act.block]? with
  | some block =>
    let after := act.on block (pool.outside act.block)
    { pool with
      allBlocks := pool.allBlocks.set act.block after.1
      outside := Function.update pool.outside act.block after.2 }
  | none => pool

def interfere (acts : List Outside) : Pool := acts.foldl outsideStep pool

/-- `try_claim_block`. -/
def tryClaimBlock (entry : Option Nat) (e : Attempt) : Pool × Bool :=
  match entry with
  | none => (pool, false)
  | some b =>
    let pool := pool.interfere e.beforeLoad
    match pool.allBlocks[b]? with
    | none => (pool, false)
    | some block =>
      if withinGrace block.control.publishTimestampUs e.now then (pool, false)
      else
        let pool := pool.interfere e.beforeCas
        match pool.allBlocks[b]? >>= fun block => block.control.tryClaimReuse with
        | some control => (pool.modifyControl b fun _ => control, true)
        | none => (pool, false)

/-- The loop of `allocate` over the entries from index `i` on; on success the index and the block. -/
def scan (attempt : Nat → Attempt) : Pool → Nat → List (Option Nat) → Pool × Option (Nat × Nat)
  | pool, _, [] => (pool, none)
  | pool, i, entry :: entries =>
    match pool.tryClaimBlock entry (attempt i) with
    | (pool, true) => (pool, entry.map fun b => (i, b))
    | (pool, false) => scan attempt pool (i + 1) entries

/-- `create_block`. -/
def createBlock (payloadSize : Nat) (mapping : Except Exn Int) : Pool × Except Exn Nat :=
  if payloadSize > sizeMax - kSharedBufferPayloadOffset then
    (pool, .error (.lengthError "shared buffer mapping size overflows size_t"))
  else
    let mappedSize := kSharedBufferPayloadOffset + payloadSize
    let blockId := pool.nextBlockId
    let pool := { pool with nextBlockId := pool.nextBlockId + 1 }
    if mappedSize > offMax then
      (pool, .error (.lengthError "shared-memory mapping is too large for ftruncate"))
    else
      match mapping with
      | .error x => (pool, .error x)
      | .ok nativeHandle =>
        let block : SharedBufferBlock :=
          { nativeHandle := nativeHandle, mappedSize := mappedSize, payloadSize := payloadSize,
            blockId := blockId, control := { payloadSize := payloadSize },
            payload := List.replicate payloadSize 0 }
        ({ pool with allBlocks := pool.allBlocks ++ [block] }, .ok pool.allBlocks.length)

/-- The end of `allocate`, which hands out block `b`. -/
def handOut (b : Nat) (e : AllocEnv) : Pool :=
  let pool := pool.modifyBlock b fun block =>
    { block with inUse := true, currentUid := drawUid e.uid }
  let pool := (pool.interfere e.beforeUid).modifyControl b fun control => { control with ipcUid := 0 }
  let pool := (pool.interfere e.beforeStamp).modifyControl b fun control =>
    { control with publishTimestampUs := 0 }
  (pool.interfere e.beforeDrop).modifyControl b (·.releaseReuseClaim)

/-- A bucket without its entry `i`; an empty bucket is erased. -/
def takeEntry (payloadSize i : Nat) (entries : List (Option Nat)) : Pool :=
  let rest := swapRemove entries i
  pool.setBucket payloadSize (if rest.isEmpty then none else some rest)

def bucket (payloadSize : Nat) : List (Option Nat) := (pool.freeBlocks payloadSize).getD []

/-- `create_block` where no entry could be claimed. -/
def allocateNew (payloadSize : Nat) (e : AllocEnv) : Pool × Except Exn Nat :=
  match pool.createBlock payloadSize e.mapping with
  | (pool, .error x) => (pool, .error x)
  | (pool, .ok b) => (pool.handOut b e, .ok b)

def allocate (payloadSize : Nat) (e : AllocEnv) : Pool × Except Exn Nat :=
  if payloadSize = 0 then
    (pool, .error (.invalidArgument "shared buffer pool cannot allocate a zero-size block"))
  else
    let entries := pool.bucket payloadSize
    match scan e.attempt pool 0 entries with
    | (pool, none) => pool.allocateNew payloadSize e
    | (pool, some (i, b)) => ((pool.takeEntry payloadSize i entries).handOut b e, .ok b)

def free (block : Option Nat) : Pool :=
  match block with
  | none => pool
  | some b =>
    match pool.allBlocks[b]? with
    | none => pool
    | some block =>
      if block.inUse then
        (pool.modifyBlock b fun block => { block with inUse := false }).setBucket block.payloadSize
          (some (pool.bucket block.payloadSize ++ [some b]))
      else pool

/-- `mark_published`, with `refresh_publish_timestamp` reading the clock as `now`. -/
def markPublished (b now : Nat) : Pool :=
  (pool.modifyBlock b fun block =>
    block.withControl { block.control with ipcUid := block.currentUid }).modifyControl b fun control =>
      { control with publishTimestampUs := now }

/-- `assign_uid`: the UID of the generation, drawn if there is none. -/
def assignUid (b : Nat) (uid : UInt64) : Pool × UInt64 :=
  match pool.allBlocks[b]? with
  | none => (pool, 0)
  | some block =>
    if block.currentUid = 0 then
      (pool.modifyBlock b fun block => { block with currentUid := drawUid uid }, drawUid uid)
    else (pool, block.currentUid)

/-- `register_block_for_ipc`; `socket` is the outcome of the system calls that a first registration
makes. -/
def registerBlock (b euid : Nat) (pid : Int) (socket : Except Exn Unit) : Pool × Except Exn String :=
  match pool.allBlocks[b]? with
  | none => (pool, .ok "")
  | some block =>
    if block.nativeHandle < 0 then (pool, .ok "")
    else
      match pool.registeredBlocks block.blockId, socket with
      | some path, _ => (pool, .ok path)
      | none, .error x => (pool, .error x)
      | none, .ok _ =>
        let path := blockSocketPath euid pid block.blockId block.nativeHandle
        ({ pool.modifyBlock b fun block => { block with socketPath := path } with
            registeredBlocks := Function.update pool.registeredBlocks block.blockId (some path) },
          .ok path)

end Pool

end MemfdBuffer
