import MemfdBuffer.Lib.NamedObjects
import MemfdBuffer.Import.Outcome

/-!
# The Windows platform

A block is a named section. `create_platform_mapping` makes one, trying up to eight names; `import_platform_mapping`
opens one by its name; handles and views are the references that keep it alive. The functions of the pool and of the
cache that call them are here too, in the form they have on this platform. String allocations do not fail; the two
allocations that `import_block` and `create_block` guard may.
-/

namespace MemfdBuffer.Windows

open Import (Access CacheKey Failure Message SharedBufferImportedBlock SharedBufferPlatformMapping payloadOffset)

/-- The sections of a login session with their sizes; a reference is a handle or a view, held by a process. -/
abbrev Sections := NamedObjects String Nat UInt64

def errorFileNotFound : Nat := 2
def errorInvalidHandle : Nat := 6
def errorAlreadyExists : Nat := 183

/-- What the wide functions read of `widen_ascii(value).c_str()`. -/
def widenAscii (value : String) : String := .ofList (value.toList.takeWhile (· ≠ '\x00'))

def mappingName (pid : UInt32) (nonce : UInt64) (blockId : UInt32) : String :=
  "Local\\rosidl_shared_buffer_" ++ toString pid.toNat ++ "_" ++ toString nonce.toNat ++ "_" ++ toString blockId.toNat

/-- The errors of the calls in `create_platform_mapping`, and whether `create_block` gets its memory. -/
structure CreateEnv where
  create : Nat → Option Nat := fun _ => none
  view : Option Nat := none
  block : Bool := true

/-- What one `import_block` meets; `seen` is the header of each section, access by access. -/
structure ImportEnv where
  openError : Option Nat := none
  view : Option Nat := none
  imported : Bool := true
  node : Bool := true
  seen : Nat → Access → SharedBufferControlHeader := fun _ _ => {}

/-! ### Sections -/

/-- `MapViewOfFile`: a view is one more reference to the section. -/
def mapView (t : Sections) (p handle : Nat) (failure : Option Nat) : Sections × Except Nat Nat :=
  match failure, t.ref handle with
  | some error, _ => (t, .error error)
  | none, none => (t, .error errorInvalidHandle)
  | none, some (_, k) => (t.refer p k, .ok t.refs.length)

/-- The loop of `create_platform_mapping` from `attempt` on: a handle and its name, or the last error. -/
def createLoop (p : Nat) (pid : UInt32) (size : UInt64) (blockId : UInt32) (nonce : UInt64)
    (create : Nat → Option Nat) : Nat → Nat → Sections → Sections × Except Nat (Nat × String)
  | 0, _, t => (t, .error errorAlreadyExists)
  | left + 1, attempt, t =>
    let name := mappingName pid (nonce + UInt64.ofNat attempt) blockId
    match create attempt with
    | some error => (t, .error error)
    | none =>
      let handle := t.refs.length
      match t.create p (widenAscii name) size with
      | (t, false) => (t, .ok (handle, name))
      | (t, true) => createLoop p pid size blockId nonce create left (attempt + 1) (t.close handle)

def createPlatformMapping (t : Sections) (p : Nat) (pid : UInt32) (mappedSize : UInt64) (blockId : UInt32)
    (nonce : UInt64) (e : CreateEnv) : Sections × Except Exn SharedBufferPlatformMapping :=
  match createLoop p pid mappedSize blockId nonce e.create 8 0 t with
  | (t, .error error) => (t, .error (.runtimeError ("CreateFileMappingW failed: Windows error " ++ toString error)))
  | (t, .ok (handle, name)) =>
    match mapView t p handle e.view with
    | (t, .error error) =>
      (t.close handle, .error (.runtimeError ("MapViewOfFile failed: Windows error " ++ toString error)))
    | (t, .ok view) =>
      (t, .ok { nativeHandle := handle, mapping := some view, mappedSize := mappedSize, ipcName := name })

def importPlatformMapping (t : Sections) (p : Nat) (ipcName : String) (mappedSize : UInt64) (e : ImportEnv) :
    Sections × Except Exn SharedBufferPlatformMapping :=
  match e.openError, t.find (widenAscii ipcName) with
  | some error, _ => (t, .error (.runtimeError ("OpenFileMappingW failed: Windows error " ++ toString error)))
  | none, none =>
    (t, .error (.runtimeError ("OpenFileMappingW failed: Windows error " ++ toString errorFileNotFound)))
  | none, some k =>
    let handle := t.refs.length
    match mapView (t.refer p k) p handle e.view with
    | (t, .error error) =>
      (t.close handle, .error (.runtimeError ("MapViewOfFile failed: Windows error " ++ toString error)))
    | (t, .ok view) =>
      (t, .ok { nativeHandle := handle, mapping := some view, mappedSize := mappedSize, ipcName := ipcName })

/-- `destroy_platform_mapping`. -/
def destroyPlatformMapping (t : Sections) (nativeHandle : Int) (mapping : Option Nat) : Sections :=
  let t := match mapping with
    | some view => t.close view
    | none => t
  if 0 ≤ nativeHandle then t.close nativeHandle.toNat else t

/-! ### The pool -/

/-- `SharedBufferBlock` with its `mapping`. -/
structure Block extends SharedBufferBlock where
  mapping : Option Nat := none

structure Pool where
  allBlocks : List Block := []
  nextBlockId : UInt32 := 0
  alive : Bool := true

/-- `create_block`. -/
def createBlock (t : Sections) (pool : Pool) (p : Nat) (pid : UInt32) (payloadSize : Nat) (nonce : UInt64)
    (e : CreateEnv) : Sections × Pool × Except Failure Nat :=
  if payloadSize > sizeMax - kSharedBufferPayloadOffset then
    (t, pool, .error (.exn (.lengthError "shared buffer mapping size overflows size_t")))
  else
    let mappedSize := kSharedBufferPayloadOffset + payloadSize
    let blockId := pool.nextBlockId
    let pool := { pool with nextBlockId := pool.nextBlockId + 1 }
    match createPlatformMapping t p pid (UInt64.ofNat mappedSize) blockId nonce e with
    | (t, .error x) => (t, pool, .error (.exn x))
    | (t, .ok mapping) =>
      if e.block = false then (destroyPlatformMapping t mapping.nativeHandle mapping.mapping, pool, .error .badAlloc)
      else
        let block : Block :=
          { nativeHandle := mapping.nativeHandle, mapping := mapping.mapping, mappedSize := mapping.mappedSize.toNat,
            payloadSize := payloadSize, blockId := blockId, socketPath := mapping.ipcName,
            control := { payloadSize := payloadSize }, payload := List.replicate payloadSize 0 }
        (t, { pool with allBlocks := pool.allBlocks ++ [block] }, .ok pool.allBlocks.length)

/-- `SharedBufferFdBroker::register_block`. -/
def registerBlock (block : Block) : String := if block.nativeHandle < 0 then "" else block.socketPath

/-- What `~SharedBufferMemoryPool` leaves of a block. -/
def Block.destroyed (block : Block) : Block := { block with nativeHandle := -1, mapping := none }

/-- `~SharedBufferMemoryPool`. -/
def destroyPool (t : Sections) (pool : Pool) : Sections × Pool :=
  (pool.allBlocks.foldl (fun t block => destroyPlatformMapping t block.nativeHandle block.mapping) t,
    { pool with allBlocks := pool.allBlocks.map Block.destroyed, alive := false })

/-! ### The cache -/

abbrev Cache := List (CacheKey × SharedBufferImportedBlock)

/-- The section behind a view. -/
def sectionOf (t : Sections) (mapping : Option Nat) : Option Nat := (mapping.bind t.ref).map Prod.snd

/-- `validate_mapping`. -/
def validate (t : Sections) (block : SharedBufferImportedBlock) (d : Message) (e : ImportEnv) : Except Failure Unit :=
  (({} : Import.World).validateMapping { seen := (sectionOf t block.mapping).elim (fun _ => {}) e.seen } block
    d.sharedBufferBlockSize d.size d.ipcUid).2

/-- `import_block` behind a failed look-up. -/
def importUncached (t : Sections) (cache : Cache) (p : Nat) (d : Message) (e : ImportEnv) :
    Sections × Cache × Except Failure SharedBufferImportedBlock :=
  match importPlatformMapping t p d.sharedBufferSocketPath d.sharedBufferBlockSize e with
  | (t, .error x) => (t, cache, .error (.exn x))
  | (t, .ok mapping) =>
    if e.imported = false then (destroyPlatformMapping t mapping.nativeHandle mapping.mapping, cache, .error .badAlloc)
    else
      let imported : SharedBufferImportedBlock :=
        { nativeHandle := mapping.nativeHandle, mapping := mapping.mapping, mappedSize := mapping.mappedSize,
          ipcName := d.sharedBufferSocketPath }
      match validate t imported d e with
      | .error x => (destroyPlatformMapping t imported.nativeHandle imported.mapping, cache, .error x)
      | .ok () =>
        if e.node = false then
          (destroyPlatformMapping t imported.nativeHandle imported.mapping, cache, .error .badAlloc)
        else (t, (d.key, imported) :: cache, .ok imported)

/-- `SharedBufferHandleCache::import_block`. -/
def importBlock (t : Sections) (cache : Cache) (p : Nat) (d : Message) (e : ImportEnv) :
    Sections × Cache × Except Failure SharedBufferImportedBlock :=
  if d.sharedBufferSocketPath = "" ∨ d.sharedBufferBlockSize < payloadOffset ∨
      sizeMax < d.sharedBufferBlockSize.toNat then
    (t, cache, .error (.exn (.runtimeError "invalid shared memory descriptor metadata")))
  else
    match cache.lookup d.key with
    | some existing =>
      match validate t existing d e with
      | .error x => (t, cache, .error x)
      | .ok () => (t, cache, .ok existing)
    | none => importUncached t cache p d e

end MemfdBuffer.Windows
