import MemfdBuffer.Proc.World

/-!
# The calls of a process

`SharedBufferImpl<T>`, the functions of `shared_buffer_api.hpp` and the two methods of the backend that
work on local buffers, and the machine that takes them in any order.
-/

namespace MemfdBuffer.Proc

/-- What `create_descriptor_with_endpoint` meets outside the process. -/
structure DescriptorEnv where
  socket : Except Exn Unit := .ok ()
  uid : UInt64 := 1
  now : Nat := 1

/-- `byte_count`. -/
def byteCount (elem count : Nat) : Except Exn Nat :=
  if count > sizeMax / elem then .error (.sharedBufferError "shared buffer size overflows size_t")
  else .ok (count * elem)

namespace World
variable (w : World)

/-! ### `SharedBufferImpl` -/

/-- `allocate_raw`; the buffer it returns stands in a new slot. -/
def allocateRaw (elem count : Nat) (env : AllocEnv) : World × Except Exn Nat :=
  match byteCount elem count with
  | .error x => (w, .error x)
  | .ok bytes =>
    match w.pool.allocate bytes env with
    | (pool, .error x) => (w.withPool pool, .error x)
    | (pool, .ok b) =>
      ((w.withPool pool).addBuf
        ⟨elem, count, SharedBuffer.allocated b ((pool.allBlocks[b]?).getD {}) bytes⟩, .ok w.bufs.length)

/-- `SharedBufferImpl(size)`. -/
def construct (elem count : Nat) (env : AllocEnv) : World × Except Exn Nat :=
  if count = 0 then (w.addBuf ⟨elem, {}⟩, .ok w.bufs.length) else w.allocateRaw elem count env

/-- `SharedBufferImpl(SharedBuffer &&, size)` from the buffer in slot `j`. -/
def adopt (j elem size : Nat) : World × Nat :=
  ((w.addBuf ⟨elem, size, {}⟩).transfer w.bufs.length j, w.bufs.length)

/-- A read handle on slot `i`, a write handle on slot `j`, and `memcpy` of `n` bytes between them. -/
def copyInto (i j n : Nat) : Option (World × Except Exn Unit) := do
  match ← w.getReadHandle i with
  | (w, .error x) => return (w, .error x)
  | (w, .ok r) =>
    match ← w.getWriteHandle j with
    | (w, .error x) => return (w.destroyRead r, .error x)
    | (w, .ok l) =>
      let bytes ← w.shown r n
      let w ← w.fill l bytes
      return ((w.destroyWrite l).destroyRead r, .ok ())

def clear (i : Nat) : World := (w.reset i).setSize i 0

def resize (i count : Nat) (env : AllocEnv) : Option (World × Except Exn Unit) := do
  let s ← w.buf i
  if count = s.impl.size then return (w, .ok ())
  else if count = 0 then return (w.clear i, .ok ())
  else
    match w.allocateRaw s.elem count env with
    | (w, .error x) => return (w, .error x)
    | (w, .ok j) =>
      let copySize := min count s.impl.size * s.elem
      if 0 < copySize ∧ s.shared.dataPtr ≠ none then
        match ← w.copyInto i j copySize with
        | (w, .error x) => return (w.destroyBuf j, .error x)
        | (w, .ok ()) => return (((w.assign i j).setSize i count).destroyBuf j, .ok ())
      else return (((w.assign i j).setSize i count).destroyBuf j, .ok ())

def toCpu (i : Nat) : Option (World × Except Exn (List UInt8)) := do
  let s ← w.buf i
  if s.impl.size = 0 then return (w, .ok [])
  else
    match ← w.getReadHandle i with
    | (w, .error x) => return (w, .error x)
    | (w, .ok r) =>
      let bytes ← w.shown r (s.impl.size * s.elem)
      return (w.destroyRead r, .ok bytes)

def clone (i : Nat) (env : AllocEnv) : Option (World × Except Exn Nat) := do
  let s ← w.buf i
  match w.construct s.elem s.impl.size env with
  | (w, .error x) => return (w, .error x)
  | (w, .ok j) =>
    if 0 < s.impl.size then
      match ← w.copyInto i j (s.impl.size * s.elem) with
      | (w, .error x) => return (w.destroyBuf j, .error x)
      | (w, .ok ()) => return (w, .ok j)
    else return (w, .ok j)

/-! ### The API -/

/-- `from_output_buffer` on a shared-memory-backed buffer. -/
def fromOutputBuffer (i : Nat) : Option (World × Except Exn Nat) := do
  let s ← w.buf i
  if s.impl.size = 0 then return (w, .error (.sharedBufferError "from_output_buffer called on empty buffer"))
  else w.getWriteHandle i

/-- `from_input_buffer` on a shared-memory-backed buffer. -/
def fromInputBuffer (i : Nat) : Option (World × Except Exn Nat) := do
  let s ← w.buf i
  if s.impl.size = 0 then return (w, .error (.sharedBufferError "from_input_buffer called on empty buffer"))
  else w.getReadHandle i

/-- `set_promoted_buffer` on the handle in slot `r` with the buffer in slot `j`. -/
def setPromotedBuffer (r j : Nat) : World :=
  match w.read r, w.buf j with
  | some h, some s => (w.setRead r (some { h with promotedBuffer := some s.impl })).setBuf j none
  | _, _ => w

/-- `from_input_buffer` on a CPU buffer of `count` elements with the bytes `source`. -/
def promote (elem count : Nat) (source : List UInt8) (env : AllocEnv) : Option (World × Except Exn Nat) :=
  if count = 0 then
    some (w, .error (.sharedBufferError "from_input_buffer called on empty buffer"))
  else if count > sizeMax / elem then
    some (w, .error (.sharedBufferError "input buffer size overflows size_t"))
  else do
    match w.construct 1 (count * elem) env with
    | (w, .error x) => return (w, .error x)
    | (w, .ok j) =>
      match ← w.getWriteHandle j with
      | (w, .error x) => return (w.destroyBuf j, .error x)
      | (w, .ok l) =>
        let w ← w.fill l source
        match ← (w.destroyWrite l).getReadHandle j with
        | (w, .error x) => return (w.destroyBuf j, .error x)
        | (w, .ok r) => return (w.setPromotedBuffer r j, .ok r)

/-! ### The backend -/

/-- `on_discovering_endpoint`; `supported` is the value under the key `"shared_buffer"`. -/
def onDiscoveringEndpoint (gid : GidKey) (supported : Option String) : World :=
  { w with
    compatibilityCache :=
      Function.update w.compatibilityCache gid (some (decide (supported = some w.metadata))) }

/-- `find_block_for_ptr` on a pointer to the start of a payload. -/
def findBlockForPtr (ptr : Option Nat) : Option Nat :=
  ptr.filter fun b => (w.pool.allBlocks[b]?).isSome

/-- The part of `create_descriptor_with_endpoint` for a block of the own pool. -/
def ownerPublish (s : Buf) (b : Nat) (e : DescriptorEnv) : World × Option SharedBufferDescriptor :=
  match w.pool.registerBlock b w.euid w.pid e.socket with
  | (pool, .error _) => (w.withPool pool, none)
  | (pool, .ok ipcName) =>
    let (pool, uid) := pool.assignUid b e.uid
    if ipcName = "" ∨ uid = 0 then (w.withPool pool, none)
    else
      match pool.allBlocks[b]? with
      | none => (w.withPool pool, none)
      | some block =>
        (w.withPool (pool.markPublished b e.now), some (ownerDescriptor s.impl.size w.pid block ipcName uid))

/-- The part for a buffer that carries a descriptor. -/
def relayPublish (s : Buf) (e : DescriptorEnv) : World × Option SharedBufferDescriptor :=
  match s.shared.control >>= fun b => (w.pool.allBlocks[b]?).map fun block => (b, block) with
  | none => (w, none)
  | some (b, block) =>
    if relayAccepts s.shared block.control then
      (w.withPool (w.pool.modifyControl b fun control => { control with publishTimestampUs := e.now }),
        some (relayDescriptor s.shared))
    else (w, none)

/-- `create_descriptor_with_endpoint`; `impl` is `none` for a null pointer or a buffer of another
backend. -/
def createDescriptorWithEndpoint (impl : Option Nat) (gid : GidKey) (e : DescriptorEnv) :
    World × Option SharedBufferDescriptor :=
  if w.compatibilityCache gid = some false then (w, none)
  else
    match impl >>= w.buf with
    | none => (w, none)
    | some s =>
      let w := w.finalizeWriteHandle s.shared
      if s.shared.hasIpcDescriptor then w.relayPublish s e
      else
        match w.findBlockForPtr s.shared.dataPtr with
        | none => (w, none)
        | some b => w.ownerPublish s b e

end World

/-- The result of a call as its caller sees it; a new object is named by its slot. -/
inductive Out
  | done
  | slot (i : Nat)
  | bytes (l : List UInt8)
  | descriptor (d : Option SharedBufferDescriptor)
  | threw (x : Exn)
deriving DecidableEq, Repr

inductive Op
  | construct (elem count : Nat) (env : AllocEnv)
  | adopt (j elem size : Nat)
  | destroyBuf (i : Nat)
  | assign (i j : Nat)
  | resize (i count : Nat) (env : AllocEnv)
  | clear (i : Nat)
  | clone (i : Nat) (env : AllocEnv)
  | toCpu (i : Nat)
  | fromOutputBuffer (i : Nat)
  | fromInputBuffer (i : Nat)
  | promote (elem count : Nat) (source : List UInt8) (env : AllocEnv)
  | getReadHandle (i : Nat)
  | getWriteHandle (i : Nat)
  | finalizeWriteHandle (i : Nat)
  | holdReaderReference (i : Nat)
  | moveRead (j : Nat)
  | assignRead (i j : Nat)
  | destroyRead (j : Nat)
  | moveWrite (j : Nat)
  | assignWrite (i j : Nat)
  | destroyWrite (j : Nat)
  | writeByte (l offset : Nat) (byte : UInt8)
  | onDiscoveringEndpoint (gid : GidKey) (supported : Option String)
  | createDescriptor (impl : Option Nat) (gid : GidKey) (e : DescriptorEnv)
  | outside (act : Outside)

/-- The caller's view of a result that is a value or an exception. -/
def Out.of {α : Type} (f : α → Out) : World × Except Exn α → World × Out
  | (w, .ok a) => (w, f a)
  | (w, .error x) => (w, .threw x)

/-- One call. Objects a call is made on must be alive, and `sizeof(T)` is positive. -/
def exec (w : World) : Op → Option (World × Out)
  | .construct elem count env => do
    guard (0 < elem)
    return Out.of .slot (w.construct elem count env)
  | .adopt j elem size => do
    guard (0 < elem)
    let _ ← w.buf j
    return ((w.adopt j elem size).1, .slot (w.adopt j elem size).2)
  | .destroyBuf i => do
    let _ ← w.buf i
    return (w.destroyBuf i, .done)
  | .assign i j => do
    let _ ← w.buf i
    let _ ← w.buf j
    return (w.assign i j, .done)
  | .resize i count env => do return Out.of (fun _ => .done) (← w.resize i count env)
  | .clear i => do
    let _ ← w.buf i
    return (w.clear i, .done)
  | .clone i env => do return Out.of .slot (← w.clone i env)
  | .toCpu i => do return Out.of .bytes (← w.toCpu i)
  | .fromOutputBuffer i => do return Out.of .slot (← w.fromOutputBuffer i)
  | .fromInputBuffer i => do return Out.of .slot (← w.fromInputBuffer i)
  | .promote elem count source env => do
    guard (0 < elem ∧ source.length = count * elem)
    return Out.of .slot (← w.promote elem count source env)
  | .getReadHandle i => do return Out.of .slot (← w.getReadHandle i)
  | .getWriteHandle i => do return Out.of .slot (← w.getWriteHandle i)
  | .finalizeWriteHandle i => do
    let s ← w.buf i
    return (w.finalizeWriteHandle s.shared, .done)
  | .holdReaderReference i => do return Out.of (fun _ => .done) (← w.holdReaderReference i)
  | .moveRead j => do
    let _ ← w.read j
    return ((w.addRead {}).transferRead w.reads.length j, .slot w.reads.length)
  | .assignRead i j => do
    let _ ← w.read i
    let _ ← w.read j
    return (if i = j then w else (w.releaseRead i).transferRead i j, .done)
  | .destroyRead j => do
    let _ ← w.read j
    return (w.destroyRead j, .done)
  | .moveWrite j => do
    let _ ← w.write j
    return ((w.addWrite {}).transferWrite w.writes.length j, .slot w.writes.length)
  | .assignWrite i j => do
    let _ ← w.write i
    let _ ← w.write j
    return (if i = j then w else (w.releaseWrite i).transferWrite i j, .done)
  | .destroyWrite j => do
    let _ ← w.write j
    return (w.destroyWrite j, .done)
  | .writeByte l offset byte => do return (← w.writeByte l offset byte, .done)
  | .onDiscoveringEndpoint gid supported => some (w.onDiscoveringEndpoint gid supported, .done)
  | .createDescriptor impl gid e => do
    -- the buffer must be one of `std::uint8_t`
    guard ((impl >>= w.buf).all fun s => s.elem == 1)
    let (w, d) := w.createDescriptorWithEndpoint impl gid e
    return (w, .descriptor d)
  | .outside act => some (w.withPool (w.pool.outsideStep act), .done)

def step (w : World) (op : Op) : Option World := (exec w op).map (·.1)

/-! ### What a call has done -/

/-- A result as its caller sees it. -/
def Out.answer {α : Type} (f : α → Out) : Except Exn α → Out
  | .ok a => f a
  | .error x => .threw x

/-- The calls that can be made, with the world and the answer that each gives. -/
inductive Ran (w : World) : Op → World → Out → Prop
  | construct {elem count : Nat} {env : AllocEnv} {w' : World} {res : Except Exn Nat} : 0 < elem →
      w.construct elem count env = (w', res) → Ran w (.construct elem count env) w' (.answer .slot res)
  | adopt {j elem size : Nat} {s : Buf} : 0 < elem → w.buf j = some s →
      Ran w (.adopt j elem size) (w.adopt j elem size).1 (.slot (w.adopt j elem size).2)
  | destroyBuf {i : Nat} {s : Buf} : w.buf i = some s → Ran w (.destroyBuf i) (w.destroyBuf i) .done
  | assign {i j : Nat} {s t : Buf} : w.buf i = some s → w.buf j = some t → Ran w (.assign i j) (w.assign i j) .done
  | resize {i count : Nat} {env : AllocEnv} {w' : World} {res : Except Exn Unit} :
      w.resize i count env = some (w', res) → Ran w (.resize i count env) w' (.answer (fun _ => .done) res)
  | clear {i : Nat} {s : Buf} : w.buf i = some s → Ran w (.clear i) (w.clear i) .done
  | clone {i : Nat} {env : AllocEnv} {w' : World} {res : Except Exn Nat} :
      w.clone i env = some (w', res) → Ran w (.clone i env) w' (.answer .slot res)
  | toCpu {i : Nat} {w' : World} {res : Except Exn (List UInt8)} :
      w.toCpu i = some (w', res) → Ran w (.toCpu i) w' (.answer .bytes res)
  | fromOutputBuffer {i : Nat} {w' : World} {res : Except Exn Nat} :
      w.fromOutputBuffer i = some (w', res) → Ran w (.fromOutputBuffer i) w' (.answer .slot res)
  | fromInputBuffer {i : Nat} {w' : World} {res : Except Exn Nat} :
      w.fromInputBuffer i = some (w', res) → Ran w (.fromInputBuffer i) w' (.answer .slot res)
  | promote {elem count : Nat} {source : List UInt8} {env : AllocEnv} {w' : World} {res : Except Exn Nat} :
      0 < elem → source.length = count * elem → w.promote elem count source env = some (w', res) →
      Ran w (.promote elem count source env) w' (.answer .slot res)
  | getReadHandle {i : Nat} {w' : World} {res : Except Exn Nat} :
      w.getReadHandle i = some (w', res) → Ran w (.getReadHandle i) w' (.answer .slot res)
  | getWriteHandle {i : Nat} {w' : World} {res : Except Exn Nat} :
      w.getWriteHandle i = some (w', res) → Ran w (.getWriteHandle i) w' (.answer .slot res)
  | finalizeWriteHandle {i : Nat} {s : Buf} : w.buf i = some s →
      Ran w (.finalizeWriteHandle i) (w.finalizeWriteHandle s.shared) .done
  | holdReaderReference {i : Nat} {w' : World} {res : Except Exn Unit} :
      w.holdReaderReference i = some (w', res) → Ran w (.holdReaderReference i) w' (.answer (fun _ => .done) res)
  | moveRead {j : Nat} {r : ReadHandle} : w.read j = some r →
      Ran w (.moveRead j) ((w.addRead {}).transferRead w.reads.length j) (.slot w.reads.length)
  | assignRead {i j : Nat} {r r' : ReadHandle} : w.read i = some r → w.read j = some r' →
      Ran w (.assignRead i j) (if i = j then w else (w.releaseRead i).transferRead i j) .done
  | destroyRead {j : Nat} {r : ReadHandle} : w.read j = some r → Ran w (.destroyRead j) (w.destroyRead j) .done
  | moveWrite {j : Nat} {h : WriteHandle} : w.write j = some h →
      Ran w (.moveWrite j) ((w.addWrite {}).transferWrite w.writes.length j) (.slot w.writes.length)
  | assignWrite {i j : Nat} {h h' : WriteHandle} : w.write i = some h → w.write j = some h' →
      Ran w (.assignWrite i j) (if i = j then w else (w.releaseWrite i).transferWrite i j) .done
  | destroyWrite {j : Nat} {h : WriteHandle} : w.write j = some h → Ran w (.destroyWrite j) (w.destroyWrite j) .done
  | writeByte {l offset : Nat} {byte : UInt8} {w' : World} : w.writeByte l offset byte = some w' →
      Ran w (.writeByte l offset byte) w' .done
  | onDiscoveringEndpoint {gid : GidKey} {supported : Option String} :
      Ran w (.onDiscoveringEndpoint gid supported) (w.onDiscoveringEndpoint gid supported) .done
  | createDescriptor {impl : Option Nat} {gid : GidKey} {e : DescriptorEnv} {w' : World}
      {d : Option SharedBufferDescriptor} : w.createDescriptorWithEndpoint impl gid e = (w', d) →
      Ran w (.createDescriptor impl gid e) w' (.descriptor d)
  | outside {act : Outside} : Ran w (.outside act) (w.withPool (w.pool.outsideStep act)) .done

/-- `from_output_buffer` is refused on an empty buffer, and else it is `get_write_handle`. -/
theorem World.fromOutputBuffer_cases {w w' : World} {i : Nat} {res : Except Exn Nat}
    (h : w.fromOutputBuffer i = some (w', res)) : w' = w ∧ (∃ x, res = .error x) ∨
      w.getWriteHandle i = some (w', res) := by
  obtain ⟨s, -, h⟩ := Option.bind_eq_some_iff.1 h
  split at h
  · cases h
    exact .inl ⟨rfl, _, rfl⟩
  · exact .inr h

theorem World.fromInputBuffer_cases {w w' : World} {i : Nat} {res : Except Exn Nat}
    (h : w.fromInputBuffer i = some (w', res)) : w' = w ∧ (∃ x, res = .error x) ∨
      w.getReadHandle i = some (w', res) := by
  obtain ⟨s, -, h⟩ := Option.bind_eq_some_iff.1 h
  split at h
  · cases h
    exact .inl ⟨rfl, _, rfl⟩
  · exact .inr h

theorem of_eq {α : Type} {f : α → Out} {p : World × Except Exn α} {w : World} {out : Out}
    (h : Out.of f p = (w, out)) : ∃ res, p = (w, res) ∧ out = .answer f res := by
  obtain ⟨w', a | x⟩ := p <;> cases h <;> exact ⟨_, rfl, rfl⟩

/-- A call that throws has failed, unless it answers what looks like it. -/
theorem answer_threw {α : Type} {f : α → Out} {res : Except Exn α} {x : Exn} (hf : ∀ a, f a ≠ .threw x)
    (h : Out.threw x = .answer f res) : res = .error x := by
  cases res with
  | ok a => exact absurd h.symm (hf a)
  | error y =>
    cases h
    rfl

theorem exec_ran {w w' : World} {op : Op} {out : Out} (he : exec w op = some (w', out)) : Ran w op w' out := by
  cases op with
  | construct elem count env =>
    obtain ⟨_, helem, h⟩ := Option.bind_eq_some_iff.1 he
    obtain ⟨res, hc, rfl⟩ := of_eq (Option.some.inj h)
    exact .construct (by simpa using helem) hc
  | adopt j elem size =>
    obtain ⟨_, helem, h⟩ := Option.bind_eq_some_iff.1 he
    obtain ⟨s, hj, h⟩ := Option.bind_eq_some_iff.1 h
    cases h
    exact .adopt (by simpa using helem) hj
  | destroyBuf i =>
    obtain ⟨s, hs, h⟩ := Option.bind_eq_some_iff.1 he
    cases h
    exact .destroyBuf hs
  | assign i j =>
    obtain ⟨s, hs, h⟩ := Option.bind_eq_some_iff.1 he
    obtain ⟨t, ht, h⟩ := Option.bind_eq_some_iff.1 h
    cases h
    exact .assign hs ht
  | resize i count env =>
    obtain ⟨p, hp, h⟩ := Option.bind_eq_some_iff.1 he
    obtain ⟨res, rfl, rfl⟩ := of_eq (Option.some.inj h)
    exact .resize hp
  | clear i =>
    obtain ⟨s, hs, h⟩ := Option.bind_eq_some_iff.1 he
    cases h
    exact .clear hs
  | clone i env =>
    obtain ⟨p, hp, h⟩ := Option.bind_eq_some_iff.1 he
    obtain ⟨res, rfl, rfl⟩ := of_eq (Option.some.inj h)
    exact .clone hp
  | toCpu i =>
    obtain ⟨p, hp, h⟩ := Option.bind_eq_some_iff.1 he
    obtain ⟨res, rfl, rfl⟩ := of_eq (Option.some.inj h)
    exact .toCpu hp
  | fromOutputBuffer i =>
    obtain ⟨p, hp, h⟩ := Option.bind_eq_some_iff.1 he
    obtain ⟨res, rfl, rfl⟩ := of_eq (Option.some.inj h)
    exact .fromOutputBuffer hp
  | fromInputBuffer i =>
    obtain ⟨p, hp, h⟩ := Option.bind_eq_some_iff.1 he
    obtain ⟨res, rfl, rfl⟩ := of_eq (Option.some.inj h)
    exact .fromInputBuffer hp
  | promote elem count source env =>
    obtain ⟨_, hguard, h⟩ := Option.bind_eq_some_iff.1 he
    obtain ⟨p, hp, h⟩ := Option.bind_eq_some_iff.1 h
    obtain ⟨res, rfl, rfl⟩ := of_eq (Option.some.inj h)
    have hpos : 0 < elem ∧ source.length = count * elem := by simpa using hguard
    exact .promote hpos.1 hpos.2 hp
  | getReadHandle i =>
    obtain ⟨p, hp, h⟩ := Option.bind_eq_some_iff.1 he
    obtain ⟨res, rfl, rfl⟩ := of_eq (Option.some.inj h)
    exact .getReadHandle hp
  | getWriteHandle i =>
    obtain ⟨p, hp, h⟩ := Option.bind_eq_some_iff.1 he
    obtain ⟨res, rfl, rfl⟩ := of_eq (Option.some.inj h)
    exact .getWriteHandle hp
  | finalizeWriteHandle i =>
    obtain ⟨s, hs, h⟩ := Option.bind_eq_some_iff.1 he
    cases h
    exact .finalizeWriteHandle hs
  | holdReaderReference i =>
    obtain ⟨p, hp, h⟩ := Option.bind_eq_some_iff.1 he
    obtain ⟨res, rfl, rfl⟩ := of_eq (Option.some.inj h)
    exact .holdReaderReference hp
  | moveRead j =>
    obtain ⟨r, hr, h⟩ := Option.bind_eq_some_iff.1 he
    cases h
    exact .moveRead hr
  | assignRead i j =>
    obtain ⟨r, hr, h⟩ := Option.bind_eq_some_iff.1 he
    obtain ⟨r', hr', h⟩ := Option.bind_eq_some_iff.1 h
    cases h
    exact .assignRead hr hr'
  | destroyRead j =>
    obtain ⟨r, hr, h⟩ := Option.bind_eq_some_iff.1 he
    cases h
    exact .destroyRead hr
  | moveWrite j =>
    obtain ⟨r, hr, h⟩ := Option.bind_eq_some_iff.1 he
    cases h
    exact .moveWrite hr
  | assignWrite i j =>
    obtain ⟨r, hr, h⟩ := Option.bind_eq_some_iff.1 he
    obtain ⟨r', hr', h⟩ := Option.bind_eq_some_iff.1 h
    cases h
    exact .assignWrite hr hr'
  | destroyWrite j =>
    obtain ⟨r, hr, h⟩ := Option.bind_eq_some_iff.1 he
    cases h
    exact .destroyWrite hr
  | writeByte l offset byte =>
    obtain ⟨w₁, hw, h⟩ := Option.bind_eq_some_iff.1 he
    cases h
    exact .writeByte hw
  | onDiscoveringEndpoint gid supported =>
    cases he
    exact .onDiscoveringEndpoint
  | createDescriptor impl gid e =>
    obtain ⟨_, -, h⟩ := Option.bind_eq_some_iff.1 he
    cases h
    exact .createDescriptor rfl
  | outside act =>
    cases he
    exact .outside

/-- A process that has only just started. -/
def Init (w : World) : Prop := ∃ euid pid metadata, w = { euid := euid, pid := pid, metadata := metadata }

end MemfdBuffer.Proc
