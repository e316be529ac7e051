import MemfdBuffer.PoolAlloc
import MemfdBuffer.Descriptor
import MemfdBuffer.Lib.Slots

/-!
# One process, call by call

The buffers and handles of one process over its pool, with calls made one at a time. Objects stand in
numbered slots (`none`: destroyed), the locals of a call too, so that unwinding after a throw is the
same destruction as any other. A `HandleState` is a number into `states`. What is undefined behaviour in
C++ has no result (`none`).
-/

namespace MemfdBuffer

/-- One more reader. -/
def HandleState.enter (state : HandleState) : HandleState :=
  { state with activeReaders := state.activeReaders + 1 }

/-- One reader less; natural subtraction is the guard `active_readers > 0`. -/
def HandleState.leave (state : HandleState) : HandleState :=
  { state with activeReaders := state.activeReaders - 1 }

namespace Pool

/-- What an `Effect` does to the own pool. -/
def effect (pool : Pool) : Effect → Pool
  | .releaseReader b => pool.modifyControl b (·.releaseReader)
  | .poolFree b => pool.free (some b)
  | .custom _ => pool

def effects (pool : Pool) (l : List Effect) : Pool := l.foldl effect pool

end Pool

namespace Proc

/-- `GidKey.data`. -/
abbrev GidKey := List UInt8

/-- A `SharedBufferImpl<T>` with `sizeof(T)`. A local `SharedBuffer` stands in the same kind of slot. -/
structure Buf where
  elem : Nat
  impl : SharedBufferImpl
deriving DecidableEq, Repr

namespace Buf

def shared (s : Buf) : SharedBuffer := s.impl.sharedBuffer

def withShared (s : Buf) (buffer : SharedBuffer) : Buf := { s with impl := { s.impl with sharedBuffer := buffer } }

def withSize (s : Buf) (size : Nat) : Buf := { s with impl := { s.impl with size := size } }

@[simp] theorem shared_withShared (s : Buf) (buffer : SharedBuffer) : (s.withShared buffer).shared = buffer := rfl

@[simp] theorem shared_withSize (s : Buf) (size : Nat) : (s.withSize size).shared = s.shared := rfl

end Buf

structure World where
  euid : Nat := 0
  pid : Int := 1
  metadata : String := ""
  pool : Pool := {}
  states : List HandleState := []
  bufs : List (Option Buf) := []
  reads : List (Option ReadHandle) := []
  writes : List (Option WriteHandle) := []
  compatibilityCache : GidKey → Option Bool := fun _ => none

namespace World
variable (w : World)

/-- The live object in slot `i`. -/
def buf (i : Nat) : Option Buf := Slots.get w.bufs i

def read (j : Nat) : Option ReadHandle := Slots.get w.reads j

def write (l : Nat) : Option WriteHandle := Slots.get w.writes l

def setBuf (i : Nat) (s : Option Buf) : World := { w with bufs := w.bufs.set i s }

def setRead (j : Nat) (r : Option ReadHandle) : World := { w with reads := w.reads.set j r }

def setWrite (l : Nat) (h : Option WriteHandle) : World := { w with writes := w.writes.set l h }

def addBuf (s : Buf) : World := { w with bufs := w.bufs ++ [some s] }

def addRead (r : ReadHandle) : World := { w with reads := w.reads ++ [some r] }

def addWrite (h : WriteHandle) : World := { w with writes := w.writes ++ [some h] }

def setState (h : Nat) (state : HandleState) : World := { w with states := w.states.set h state }

def withPool (pool : Pool) : World := { w with pool := pool }

def effects (l : List Effect) : World := w.withPool (w.pool.effects l)

/-! ### Handles -/

/-- The creation of `handle_state_` in slot `i`. -/
def makeState (i : Nat) (s : Buf) : World :=
  { w.setBuf i (some (s.withShared { s.shared with handleState := some w.states.length })) with
    states := w.states ++ [{}] }

/-- `handle_state_` of slot `i`, made if there is none. -/
def handleState (i : Nat) (s : Buf) : World × Nat :=
  match s.shared.handleState with
  | some h => (w, h)
  | none => (w.makeState i s, w.states.length)

def makeLease (control : Option Nat) : World × Except Exn (Option Nat) :=
  match control with
  | none => (w, .ok none)
  | some b =>
    match w.pool.allBlocks[b]? >>= fun block => block.control.tryAcquireReader with
    | some header => (w.withPool (w.pool.modifyControl b fun _ => header), .ok (some b))
    | none => (w, .error (.runtimeError "shared buffer block is being reused"))

/-- `SharedBuffer::get_read_handle` on slot `i`; the handle stands in a new slot. -/
def getReadHandle (i : Nat) : Option (World × Except Exn Nat) := do
  let s ← w.buf i
  let (w, h) := w.handleState i s
  let state ← w.states[h]?
  if state.state = .inUse then
    return (w, .error (.runtimeError "cannot acquire a read handle while writing"))
  else
    match (w.setState h state.enter).makeLease s.shared.control with
    | (w, .error x) => return (w.setState h state.enter.leave, .error x)
    | (w, .ok lease) =>
      return (w.addRead
        { dataPtr := s.shared.dataPtr, state := some h, readerLease := lease, owner := s.shared.owner },
        .ok w.reads.length)

/-- `SharedBuffer::get_write_handle` on slot `i`. -/
def getWriteHandle (i : Nat) : Option (World × Except Exn Nat) := do
  let s ← w.buf i
  if s.shared.writable = false then
    return (w, .error (.runtimeError "cannot acquire a write handle for a read-only shared buffer"))
  else if s.shared.dataPtr = none ∨ s.shared.size = 0 then
    return (w, .error (.runtimeError "cannot acquire a write handle for an empty shared buffer"))
  else
    let (w, h) := w.handleState i s
    let state ← w.states[h]?
    match state.state with
    | .inUse => return (w, .error (.runtimeError "shared buffer write handle already in use"))
    | .finalized =>
      return (w, .error (.runtimeError "shared buffer write has already been finalized"))
    | .unset =>
      if state.activeReaders ≠ 0 then
        return (w, .error (.runtimeError "shared buffer read handle already in use"))
      else
        return ((w.setState h { state with state := .inUse }).addWrite
          { dataPtr := s.shared.dataPtr, state := some h, owner := s.shared.owner }, .ok w.writes.length)

/-- The transition that `finalize_write_handle` makes under the lock. -/
def finalizeState (h : Nat) : World :=
  match w.states[h]? with
  | some state => if state.state = .inUse then w.setState h { state with state := .finalized } else w
  | none => w

/-- `SharedBuffer::finalize_write_handle`. -/
def finalizeWriteHandle (buffer : SharedBuffer) : World :=
  match buffer.handleState with
  | some h => w.finalizeState h
  | none => w

/-- `SharedBuffer::hold_reader_reference` on slot `i`. -/
def holdReaderReference (i : Nat) : Option (World × Except Exn Unit) := do
  let s ← w.buf i
  if s.shared.heldReaderLease.isSome then return (w, .ok ())
  else
    match w.makeLease s.shared.control with
    | (w, .error x) => return (w, .error x)
    | (w, .ok lease) => return (w.setBuf i (some (s.withShared (s.shared.withLease lease))), .ok ())

/-- What `ReadHandle::release` does to its `HandleState`. -/
def leaveState : Option Nat → World
  | none => w
  | some h =>
    match w.states[h]? with
    | some state => w.setState h state.leave
    | none => w

/-- `ReadHandle::release` on slot `j`. -/
def releaseRead (j : Nat) : World :=
  match w.read j with
  | some r => ((w.leaveState r.state).effects r.releaseEffects).setRead j (some {})
  | none => w

def destroyRead (j : Nat) : World := (w.releaseRead j).setRead j none

/-- The transfer of a move from slot `j` to slot `i`. -/
def transferRead (i j : Nat) : World :=
  match w.read j with
  | some r => (w.setRead i (some r)).setRead j (some {})
  | none => w

/-- What `WriteHandle::release` does to its `HandleState`. -/
def endWrite : Option Nat → World
  | none => w
  | some h =>
    match w.states[h]? with
    | some state => w.setState h { state with state := .finalized }
    | none => w

/-- `WriteHandle::release` on slot `l`, which keeps `state_`. -/
def releaseWrite (l : Nat) : World :=
  match w.write l with
  | some h => (w.endWrite h.state).setWrite l (some { state := h.state })
  | none => w

def destroyWrite (l : Nat) : World := (w.releaseWrite l).setWrite l none

def transferWrite (i j : Nat) : World :=
  match w.write j with
  | some h => (w.setWrite i (some h)).setWrite j (some {})
  | none => w

/-! ### Buffers -/

/-- `SharedBuffer::reset` on slot `i`. -/
def reset (i : Nat) : World :=
  match w.buf i with
  | some s => (w.effects s.shared.resetEffects).setBuf i (some (s.withShared s.shared.resetFields))
  | none => w

def destroyBuf (i : Nat) : World := (w.reset i).setBuf i none

/-- The transfer of a move of the `SharedBuffer` in slot `j` to the one in slot `i`. -/
def transfer (i j : Nat) : World :=
  match w.buf i, w.buf j with
  | some s, some t =>
    (w.setBuf i (some (s.withShared t.shared.moveFrom.1))).setBuf j (some (t.withShared t.shared.moveFrom.2))
  | _, _ => w

/-- `SharedBuffer::operator=` from slot `j`. -/
def assign (i j : Nat) : World := if i = j then w else (w.reset i).transfer i j

def setSize (i size : Nat) : World :=
  match w.buf i with
  | some s => w.setBuf i (some (s.withSize size))
  | none => w

/-! ### Payload bytes -/

/-- The first `n` bytes behind a `ReadHandle`. -/
def shown (j n : Nat) : Option (List UInt8) := do
  let r ← w.read j
  let b ← r.dataPtr
  let block ← w.pool.allBlocks[b]?
  if n ≤ block.payload.length then return block.payload.take n else none

/-- `memcpy` of `bytes` to the start of what a `WriteHandle` points to. -/
def fill (l : Nat) (bytes : List UInt8) : Option World := do
  let h ← w.write l
  let b ← h.dataPtr
  let block ← w.pool.allBlocks[b]?
  if bytes.length ≤ block.payload.length then
    return w.withPool (w.pool.modifyBlock b fun block =>
      { block with payload := bytes ++ block.payload.drop bytes.length })
  else none

/-- A store through the pointer of a `WriteHandle`. -/
def writeByte (l offset : Nat) (byte : UInt8) : Option World := do
  let h ← w.write l
  let b ← h.dataPtr
  let block ← w.pool.allBlocks[b]?
  if offset < block.payload.length then
    return w.withPool (w.pool.modifyBlock b fun block => { block with payload := block.payload.set offset byte })
  else none

/-! ### The pool -/

variable {w} {w' : World}

/-- A lease concerns the pool alone. -/
theorem makeLease_frame {control : Option Nat} {res : Except Exn (Option Nat)}
    (hm : w.makeLease control = (w', res)) : ∃ pool, w' = w.withPool pool := by
  unfold makeLease at hm
  split at hm
  · cases hm
    exact ⟨w.pool, rfl⟩
  · split at hm
    · cases hm
      exact ⟨_, rfl⟩
    · cases hm
      exact ⟨w.pool, rfl⟩

theorem finalizeWriteHandle_eq (x : SharedBuffer) :
    ∃ states, w.finalizeWriteHandle x = { w with states := states } := by
  unfold finalizeWriteHandle finalizeState
  split
  · split
    · split
      · exact ⟨_, rfl⟩
      · exact ⟨w.states, rfl⟩
    · exact ⟨w.states, rfl⟩
  · exact ⟨w.states, rfl⟩

theorem pool_finalizeWriteHandle (x : SharedBuffer) : (w.finalizeWriteHandle x).pool = w.pool := by
  obtain ⟨states, heq⟩ := w.finalizeWriteHandle_eq x
  rw [heq]

theorem bufs_finalizeWriteHandle (x : SharedBuffer) : (w.finalizeWriteHandle x).bufs = w.bufs := by
  obtain ⟨states, heq⟩ := w.finalizeWriteHandle_eq x
  rw [heq]

theorem releaseWrite_eq (l : Nat) :
    ∃ states writes, w.releaseWrite l = { w with states := states, writes := writes } := by
  unfold releaseWrite endWrite
  split
  · split
    · exact ⟨w.states, _, rfl⟩
    · split
      · exact ⟨_, _, rfl⟩
      · exact ⟨w.states, _, rfl⟩
  · exact ⟨w.states, w.writes, rfl⟩

end World

end Proc

end MemfdBuffer
