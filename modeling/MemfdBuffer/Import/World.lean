import MemfdBuffer.Descriptor
import MemfdBuffer.Lib.Machine

/-!
# The import of a descriptor

`from_descriptor_with_endpoint` with the functions below it, on machine integers. Everything outside the
process answers through an `Env`, the header of the mapped block included: other processes write to it at
any time, so each access of the call finds content of its own. An allocation may fail wherever the code
allocates.
-/

namespace MemfdBuffer.Import

/-- `SharedBufferDescriptor.msg`, with the widths of its fields. -/
structure Message where
  size : UInt64
  elementTypeName : String
  sharedBufferPid : Int32
  sharedBufferBlockId : UInt32
  sharedBufferBlockSize : UInt64
  sharedBufferSocketPath : String
  ipcUid : UInt64
deriving DecidableEq, Repr

/-- What a call throws. -/
inductive Failure
  | badAlloc
  | exn (x : Exn)
deriving DecidableEq, Repr

structure CacheKey where
  pid : Int32
  blockId : UInt32
  ipcName : String
deriving DecidableEq, Repr

structure SharedBufferPlatformMapping where
  nativeHandle : Int := -1
  /-- The number of the mapped region; `none` is the null pointer. -/
  mapping : Option Nat := none
  mappedSize : UInt64 := 0
  ipcName : String := ""
deriving DecidableEq, Repr

structure SharedBufferImportedBlock where
  nativeHandle : Int
  mapping : Option Nat
  mappedSize : UInt64
  ipcName : String
deriving DecidableEq, Repr

/-- The accesses of one call to the header of its block, in their order. -/
inductive Access
  | magic
  | abiVersion
  | payloadSize
  | ipcUid
  /-- The last round of the loop in `try_acquire_shared_buffer_reader`. -/
  | acquire
  | recheck
  | release
deriving DecidableEq, Repr

/-- Where one call allocates. -/
inductive Alloc
  /-- The text of an exception. -/
  | what
  /-- The copy of `strerror`'s text. -/
  | message
  /-- The path in the `CacheKey`. -/
  | key
  /-- The path in the `SharedBufferPlatformMapping`. -/
  | name
  /-- `make_shared<SharedBufferImportedBlock>`. -/
  | imported
  /-- The node of the cache. -/
  | node
  /-- The closure with `imported`, in the `std::function`. -/
  | closure
  /-- The path handed to the constructor of `SharedBuffer`. -/
  | path
  /-- `make_unique<SharedBufferImpl>`. -/
  | impl
deriving DecidableEq, Repr

/-- The answers of the system calls in `receive_fd_from_socket`. -/
structure Reply where
  socket : Bool := true
  connect : Except String Unit := .ok ()
  received : Int := 1
  /-- The first fd in the control message; `none` where that is no `SCM_RIGHTS` message. -/
  control : Option Int32 := some 3
  /-- A second one, for which the 24 bytes of `control` have room. -/
  spare : Option Int32 := none

/-- What one call meets outside the process. -/
structure Env where
  alloc : Alloc → Bool := fun _ => true
  reply : Reply := {}
  /-- `st_size`, unless `fstat` fails. -/
  fstat : Option Int64 := none
  mmap : Except String Unit := .ok ()
  seen : Access → SharedBufferControlHeader := fun _ => {}

/-- A write to the header of mapping `m`, with the content before and after. -/
structure Touch where
  m : Nat
  before : SharedBufferControlHeader
  after : SharedBufferControlHeader
deriving DecidableEq, Repr

structure World where
  cache : CacheKey → Option SharedBufferImportedBlock := fun _ => none
  /-- The lengths of all regions ever mapped. -/
  mmaps : List UInt64 := []
  /-- The fds received. -/
  fds : List Int := []
  -- history
  /-- Those of them that nobody has read. -/
  stray : List Int := []
  /-- One entry for each `munmap`. -/
  unmapped : List Nat := []
  touches : List Touch := []
  /-- The operands of the unsigned subtractions. -/
  subtractions : List (UInt64 × UInt64) := []

/-- `kSharedBufferPayloadOffset` as an operand of 64 bits. -/
def payloadOffset : UInt64 := .ofNat kSharedBufferPayloadOffset

theorem toNat_payloadOffset : payloadOffset.toNat = kSharedBufferPayloadOffset := rfl

/-- `throw std::runtime_error(what)`. -/
def Env.raise (e : Env) (what : String) : Failure :=
  if e.alloc .what then .exn (.runtimeError what) else .badAlloc

/-- `receive_fd_from_socket`, which reads the first fd only. Its socket is closed on every way out, but for the one where
the copy of `strerror`'s text fails. -/
def receiveFdFromSocket (e : Env) (socketPath : String) : Except Failure Int32 :=
  if socketPath = "" ∨ sunPathSize ≤ socketPath.utf8ByteSize then
    .error (e.raise "invalid shared-memory broker socket path")
  else if e.reply.socket = false then .error (e.raise "failed to create shared-memory broker client socket")
  else
    match e.reply.connect with
    | .error message =>
      if e.alloc .message then .error (e.raise ("failed to connect to shared-memory broker: " ++ message))
      else .error .badAlloc
    | .ok () =>
      if e.reply.received ≠ 1 then .error (e.raise "shared-memory broker returned no descriptor")
      else
        match e.reply.control with
        | none => .error (e.raise "shared-memory broker returned an invalid control message")
        | some fd =>
          if fd < 0 then .error (e.raise "shared-memory broker returned an invalid descriptor") else .ok fd

namespace SharedBufferImportedBlock

/-- `control()`: the start of the mapping. -/
def control (block : SharedBufferImportedBlock) : Option Nat := block.mapping

/-- `payload()`: `kSharedBufferPayloadOffset` bytes into the mapping. -/
def payload (block : SharedBufferImportedBlock) : Option Nat := block.mapping

end SharedBufferImportedBlock

namespace World
variable (w : World) (e : Env)

/-- `a - b` on 64 bits. -/
def sub (a b : UInt64) : World × UInt64 := ({ w with subtractions := w.subtractions ++ [(a, b)] }, a - b)

def closeFd (fd : Int) : World := { w with fds := w.fds.erase fd }

/-- `destroy_platform_mapping`. -/
def destroyPlatformMapping (nativeHandle : Int) (mapping : Option Nat) (mappedSize : UInt64) : World :=
  let w : World :=
    match mapping with
    | some m => if 0 < mappedSize then { w with unmapped := w.unmapped ++ [m] } else w
    | none => w
  if 0 ≤ nativeHandle then w.closeFd nativeHandle else w

/-- `~SharedBufferImportedBlock`. -/
def destroyImportedBlock (block : SharedBufferImportedBlock) : World :=
  w.destroyPlatformMapping block.nativeHandle block.mapping block.mappedSize

def importPlatformMapping (ipcName : String) (mappedSize : UInt64) :
    World × Except Failure SharedBufferPlatformMapping :=
  match receiveFdFromSocket e ipcName with
  | .error x => (w, .error x)
  | .ok fd =>
    let stray := e.reply.spare.toList.map Int32.toInt
    let w : World := { w with fds := w.fds ++ fd.toInt :: stray, stray := w.stray ++ stray }
    if e.fstat.all fun size => size < 0 ∨ size.toUInt64 ≠ mappedSize then
      (w.closeFd fd.toInt, .error (e.raise "shared-memory size does not match descriptor message"))
    else
      match e.mmap with
      | .error message =>
        if e.alloc .message then
          (w.closeFd fd.toInt, .error (e.raise ("failed to map received shared-memory FD: " ++ message)))
        else (w, .error .badAlloc)
      | .ok () =>
        let mapping := w.mmaps.length
        let w : World := { w with mmaps := w.mmaps ++ [mappedSize] }
        -- the returned struct copies the name after the mapping has been made
        if e.alloc .name then
          (w, .ok { nativeHandle := fd.toInt, mapping := some mapping, mappedSize := mappedSize, ipcName := ipcName })
        else (w, .error .badAlloc)

def validateMapping (block : SharedBufferImportedBlock) (mappedSize payloadSize expectedUid : UInt64) :
    World × Except Failure Unit :=
  let invalid : Failure := e.raise "invalid shared memory mapping size"
  if block.control = none ∨ mappedSize ≠ block.mappedSize ∨ mappedSize < payloadOffset then (w, .error invalid)
  else
    let (w, room) := w.sub mappedSize payloadOffset
    if room < payloadSize then (w, .error invalid)
    else if (e.seen .magic).magic ≠ kSharedBufferControlMagic ∨
        (e.seen .abiVersion).abiVersion ≠ kSharedBufferControlAbiVersion then
      (w, .error (e.raise "shared memory control header ABI mismatch"))
    else if (e.seen .payloadSize).payloadSize ≠ payloadSize.toNat then
      (w, .error (e.raise "shared memory control header payload size mismatch"))
    else if expectedUid = 0 then
      (w, .error (e.raise "shared memory descriptor contains a zero publication UID"))
    else if (e.seen .ipcUid).ipcUid ≠ expectedUid then
      (w, .error (e.raise "stale shared memory descriptor publication UID"))
    else (w, .ok ())

/-- The part of `import_block` behind a failed look-up. -/
def importUncached (key : CacheKey) (mappedSize payloadSize expectedUid : UInt64) :
    World × Except Failure SharedBufferImportedBlock :=
  match w.importPlatformMapping e key.ipcName mappedSize with
  | (w, .error x) => (w, .error x)
  | (w, .ok mapping) =>
    if e.alloc .imported = false then
      (w.destroyPlatformMapping mapping.nativeHandle mapping.mapping mapping.mappedSize, .error .badAlloc)
    else
      let imported : SharedBufferImportedBlock :=
        { nativeHandle := mapping.nativeHandle, mapping := mapping.mapping, mappedSize := mapping.mappedSize,
          ipcName := key.ipcName }
      match w.validateMapping e imported mappedSize payloadSize expectedUid with
      | (w, .error x) => (w.destroyImportedBlock imported, .error x)
      | (w, .ok ()) =>
        if e.alloc .node = false then (w.destroyImportedBlock imported, .error .badAlloc)
        else ({ w with cache := Function.update w.cache key (some imported) }, .ok imported)

/-- `SharedBufferHandleCache::import_block`. -/
def importBlock (ipcName : String) (pid : Int32) (blockId : UInt32) (mappedSize payloadSize expectedUid : UInt64) :
    World × Except Failure SharedBufferImportedBlock :=
  if ipcName = "" ∨ mappedSize < payloadOffset ∨ sizeMax < mappedSize.toNat then
    (w, .error (e.raise "invalid shared memory descriptor metadata"))
  else if e.alloc .key = false then (w, .error .badAlloc)
  else
    let key : CacheKey := { pid := pid, blockId := blockId, ipcName := ipcName }
    match w.cache key with
    | some existing =>
      match w.validateMapping e existing mappedSize payloadSize expectedUid with
      | (w, .error x) => (w, .error x)
      | (w, .ok ()) => (w, .ok existing)
    | none => w.importUncached e key mappedSize payloadSize expectedUid

/-- A write of this process to the header of mapping `m`, found as `access` tells. -/
def touch (m : Nat) (access : Access) (f : SharedBufferControlHeader → SharedBufferControlHeader) : World :=
  { w with touches := w.touches ++ [{ m := m, before := e.seen access, after := f (e.seen access) }] }

/-- `acquire_reader`. -/
def acquireReader (block : SharedBufferImportedBlock) : World × Except Failure Unit :=
  match block.control with
  | none => (w, .error (e.raise "cannot acquire a reader for unmapped shared memory"))
  | some m =>
    match (e.seen .acquire).tryAcquireReader with
    | none => (w, .error (e.raise "shared memory block is being reused"))
    | some header => (w.touch e m .acquire fun _ => header, .ok ())

/-- `release_reader`. -/
def releaseReader (block : SharedBufferImportedBlock) : World :=
  match block.control with
  | none => w
  | some m => w.touch e m .release (·.releaseReader)

/-- What a destroyed buffer does to the mappings. -/
def effect : Effect → World
  | .releaseReader m => w.touch e m .release (·.releaseReader)
  | .poolFree _ | .custom _ => w

/-- The checks of `from_descriptor_with_endpoint` on the descriptor alone. -/
def checkMessage (d : Message) : World × Except Failure Unit :=
  let invalid : Failure := e.raise "invalid shared-buffer descriptor metadata"
  if d.elementTypeName ≠ uint8TypeName then
    (w, .error (e.raise "shared-buffer descriptor element type mismatch"))
  else if d.sharedBufferPid ≤ 0 ∨ d.sharedBufferSocketPath = "" ∨ d.ipcUid = 0 ∨
      d.sharedBufferBlockSize < payloadOffset then
    (w, .error invalid)
  else
    let (w, room) := w.sub d.sharedBufferBlockSize payloadOffset
    if room < d.size then (w, .error invalid) else (w, .ok ())

/-- From the acquired reader to the finished buffer. -/
def buildBuffer (imported : SharedBufferImportedBlock) (d : Message) : World × Except Failure SharedBufferImpl :=
  -- a reader is counted here, and no object owns it before `buffer` is built
  if e.alloc .closure = false ∨ e.alloc .path = false then (w, .error .badAlloc)
  else
    match SharedBuffer.construct imported.payload d.size.toNat
        ((imported.mapping.map Deleter.releaseReader).getD .noop) imported.control imported.mapping
        d.sharedBufferBlockId d.sharedBufferBlockSize.toNat false d.sharedBufferPid.toInt
        d.sharedBufferSocketPath d.ipcUid with
    | .error x => (w, .error (.exn x))
    | .ok buffer =>
      if e.alloc .impl = false then (buffer.resetEffects.foldl (effect · e) w, .error .badAlloc)
      else (w, .ok { size := d.size.toNat, sharedBuffer := buffer.moveFrom.1 })

def fromDescriptorWithEndpoint : Option Message → World × Except Failure SharedBufferImpl
  | none => (w, .error (e.raise "null shared-buffer descriptor"))
  | some d =>
    match w.checkMessage e d with
    | (w, .error x) => (w, .error x)
    | (w, .ok ()) =>
      match w.importBlock e d.sharedBufferSocketPath d.sharedBufferPid d.sharedBufferBlockId
          d.sharedBufferBlockSize d.size d.ipcUid with
      | (w, .error x) => (w, .error x)
      | (w, .ok imported) =>
        match w.acquireReader e imported with
        | (w, .error x) => (w, .error x)
        | (w, .ok ()) =>
          if (e.seen .recheck).ipcUid ≠ d.ipcUid then
            (w.releaseReader e imported,
              .error (e.raise "stale shared-buffer descriptor raced with block reuse"))
          else w.buildBuffer e imported d

end World

/-- A call of `from_descriptor_with_endpoint`. -/
structure ImportOp where
  env : Env
  descriptor : Option Message

def step (w : World) (op : ImportOp) : Option World :=
  some (w.fromDescriptorWithEndpoint op.env op.descriptor).1

/-- A process that has imported nothing. -/
def Init (w : World) : Prop :=
  w.cache = (fun _ => none) ∧ w.mmaps = [] ∧ w.unmapped = [] ∧ w.touches = [] ∧ w.subtractions = []

abbrev Reachable (w : World) : Prop := Machine.Reach step Init w

end MemfdBuffer.Import
