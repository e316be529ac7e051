import MemfdBuffer.Proc.Exclusive
import MemfdBuffer.WriteAccess

/-!
# A Python process

The objects of the `shared_buffer` module over the buffers and handles of the process: `rosidl_buffer.Buffer` objects,
`_NativeReadAccess` objects with their views, `WriteAccess` objects with theirs. An object is destroyed with its last
reference; what that destroys in turn goes with it, in the order of the C++ members.

The program's buffers are those that it allocates itself and those of other backends. One that it has received through a
shared-memory descriptor has a block of another pool, or of this one a second time, and is left out.
-/

namespace MemfdBuffer.Python

/-- `std::numeric_limits<Py_ssize_t>::max()`. -/
def ssizeMax : Nat := 2 ^ 63 - 1

/-- What a call raises; pybind11 translates the exceptions of C++. -/
inductive Raised
  | py (x : PyExn)
  | native (x : Exn)
  | overflowError (message : String)
  | indexError
deriving DecidableEq, Repr

/-- What a `Buffer` object has behind it. -/
inductive Content
  /-- A `SharedBufferImpl<std::uint8_t>` of the process's own pool. -/
  | shared (i : Nat)
  /-- The implementation of another backend, by its `to_vector`. -/
  | other (bytes : List UInt8)
deriving DecidableEq, Repr

structure BufferObject where
  content : Content
  /-- The references of the program. -/
  refs : Nat := 1
deriving DecidableEq, Repr

/-- A `_NativeReadAccess`. Its only reference is that of the managed buffer which its views share. -/
structure NativeReadAccess where
  owner : Nat
  handle : Nat
  byteCount : Nat
  /-- The views that are not released. -/
  views : Nat := 1
deriving DecidableEq, Repr

/-- A `WriteAccess` with all that it reaches. The world has the handle in slot `handle`; `py` has it by its value, with
the handle states as they were when it was made. -/
structure WriteScope where
  py : PyWrite
  handle : Nat
  /-- The `WriteAccess` object is gone. -/
  dropped : Bool := false
deriving DecidableEq, Repr

structure System where
  world : Proc.World := {}
  buffers : List (Option BufferObject) := []
  reads : List (Option NativeReadAccess) := []
  scopes : List (Option WriteScope) := []

/-- What the constructor of an access meets. -/
structure AccessEnv where
  /-- The answer of `_get_buffer_ptr`; `false` is address 0. -/
  pointer : Except Raised Bool := .ok true
  alloc : AllocEnv := {}
  /-- `memoryview` gets its memory. -/
  view : Bool := true

/-- A call on a view, which needs the view alone. -/
def onView : PyOp → Bool
  | .derive _ | .release _ => true
  | _ => false

/-- What a call returns. -/
inductive Value
  | none
  | buffer (o : Nat)
  | read (k : Nat)
  | scope (k : Nat)
  | byte (b : UInt8)
  | value (v : PyValue)
  | descriptor (d : Option SharedBufferDescriptor)
deriving DecidableEq, Repr

namespace System
variable (s : System)

def buffer (o : Nat) : Option BufferObject := Slots.get s.buffers o

def access (k : Nat) : Option NativeReadAccess := Slots.get s.reads k

def scope (k : Nat) : Option WriteScope := Slots.get s.scopes k

def setBuffer (o : Nat) (b : Option BufferObject) : System := { s with buffers := s.buffers.set o b }

def setAccess (k : Nat) (a : Option NativeReadAccess) : System := { s with reads := s.reads.set k a }

def setScope (k : Nat) (c : Option WriteScope) : System := { s with scopes := s.scopes.set k c }

/-- A call into C++. -/
def call (op : Proc.Op) : Option (System × Proc.Out) :=
  (Proc.exec s.world op).map fun p => ({ s with world := p.1 }, p.2)

/-! ### Lifetimes -/

/-- Some access has object `o` as its `owner_`. -/
def owned (o : Nat) : Bool :=
  s.reads.any (fun x => x.any fun a => a.owner == o) ||
    s.scopes.any (fun x => x.any fun c => c.py.native.owner == some o)

/-- The end of object `o` where nothing refers to it. -/
def collect (o : Nat) : Option System :=
  match s.buffer o with
  | none => some s
  | some b =>
    if b.refs = 0 ∧ s.owned o = false then
      match b.content with
      | .shared i => ((s.setBuffer o none).call (.destroyBuf i)).map Prod.fst
      | .other _ => some (s.setBuffer o none)
    else some s

/-- `~NativeReadAccess`: `handle_` goes before `owner_`. -/
def destroyAccess (k : Nat) (a : NativeReadAccess) : Option System := do
  let (s, _) ← s.call (.destroyRead a.handle)
  (s.setAccess k none).collect a.owner

/-- What happens to `handle_` and `owner_` in `NativeWriteAccess::close` and in the destructor of an access that is not
closed; `c` is what is left of the scope. -/
def endScope (k handle : Nat) (owner : Option Nat) (c : Option WriteScope) : Option System := do
  let (s, _) ← s.call (.destroyWrite handle)
  match owner with
  | some o => (s.setScope k c).collect o
  | none => some (s.setScope k c)

/-! ### The module -/

/-- `allocate_buffer_internal`; `taken`: `_take_buffer_from_ptr` returns an object. -/
def allocateBuffer (byteCount : Nat) (env : AllocEnv) (taken : Except Raised Unit) :
    Option (System × Except Raised Value) :=
  if byteCount = 0 then some (s, .error (.py (.valueError "byte_count must be greater than zero")))
  else if ssizeMax < byteCount then
    some (s, .error (.overflowError "byte_count exceeds Python buffer protocol limits"))
  else do
    match ← s.call (.construct 1 byteCount env) with
    | (s, .threw x) => return (s, .error (.native x))
    | (s, .slot i) =>
      match taken with
      | .ok () => return ({ s with buffers := s.buffers ++ [some { content := .shared i }] },
        .ok (.buffer s.buffers.length))
      | .error x => do
        let (s, _) ← s.call (.destroyBuf i)
        return (s, .error x)
    | _ => none

/-- `buffer_->size()`. -/
def size (b : BufferObject) : Option Nat :=
  match b.content with
  | .shared i => (s.world.buf i).map (·.impl.size)
  | .other bytes => some bytes.length

/-- What both constructors begin with: `get_buffer_ptr` and the size. -/
def begin (b : BufferObject) (e : AccessEnv) : Option (Except Raised Nat) :=
  match e.pointer with
  | .error x => some (.error x)
  | .ok false => some (.error (.native (.invalidArgument "rosidl buffer pointer must not be null")))
  | .ok true => (s.size b).map fun byteCount =>
    if ssizeMax < byteCount then .error (.overflowError "buffer size exceeds Python buffer protocol limits")
    else .ok byteCount

/-- `from_input_buffer`. -/
def fromInputBuffer (b : BufferObject) (env : AllocEnv) : Option (System × Proc.Out) :=
  match b.content with
  | .shared i => s.call (.fromInputBuffer i)
  | .other bytes => s.call (.promote 1 bytes.length bytes env)

/-- `read_buffer`. -/
def readBuffer (o : Nat) (e : AccessEnv) : Option (System × Except Raised Value) := do
  let b ← s.buffer o
  guard (0 < b.refs)
  match ← s.begin b e with
  | .error x => return (s, .error x)
  | .ok byteCount =>
    match ← s.fromInputBuffer b e.alloc with
    | (s, .threw x) => return (s, .error (.native x))
    | (s, .slot r) =>
      if e.view then
        return ({ s with reads := s.reads ++ [some { owner := o, handle := r, byteCount := byteCount }] },
          .ok (.read s.reads.length))
      else do
        let (s, _) ← s.call (.destroyRead r)
        return (s, .error (.py .memoryError))
    | _ => none

/-- `from_output_buffer`. -/
def fromOutputBuffer (b : BufferObject) : Option (System × Proc.Out) :=
  match b.content with
  | .shared i => s.call (.fromOutputBuffer i)
  | .other bytes =>
    if bytes = [] then some (s, .threw (.sharedBufferError "from_output_buffer called on empty buffer"))
    else some (s, .threw (.sharedBufferError "from_output_buffer requires a shared-memory-backed buffer"))

/-- `write_buffer`. -/
def writeBuffer (o : Nat) (e : AccessEnv) : Option (System × Except Raised Value) := do
  let b ← s.buffer o
  guard (0 < b.refs)
  match ← s.begin b e with
  | .error x => return (s, .error x)
  | .ok byteCount =>
    match ← s.fromOutputBuffer b with
    | (s, .threw x) => return (s, .error (.native x))
    | (s, .slot l) =>
      let handle ← s.world.write l
      let native : NativeWriteAccess := { owner := some o, buffer := some o, handle := handle, byteCount := byteCount }
      let py : PyWrite := { native := native, states := s.world.states }
      return ({ s with scopes := s.scopes ++ [some { py := py, handle := l }] },
        .ok (.scope s.scopes.length))
    | _ => none

/-- A call on scope `k` or on one of its views. -/
def scopeCall (k : Nat) (op : PyOp) : Option (System × Except Raised Value) := do
  let c ← s.scope k
  guard (c.dropped = false ∨ onView op = true)
  let (py, r) ← c.py.exec op
  let r := match r with
    | .ok v => .ok (.value v)
    | .error x => .error (.py x)
  if py.native.closed ∧ c.py.native.closed = false then
    return (← s.endScope k c.handle c.py.native.owner (some { c with py := py }), r)
  else if c.dropped ∧ py.native.exports = 0 then return (← s.endScope k c.handle c.py.native.owner none, r)
  else return (s.setScope k (some { c with py := py }), r)

/-- The last reference to the `WriteAccess` of scope `k` goes. -/
def dropScope (k : Nat) : Option (System × Except Raised Value) := do
  let c ← s.scope k
  guard (c.dropped = false)
  if c.py.native.closed then return (s.setScope k none, .ok .none)
  else if c.py.native.exports = 0 then return (← s.endScope k c.handle c.py.native.owner none, .ok .none)
  else return (s.setScope k (some { c with dropped := true }), .ok .none)

end System

inductive Call
  | allocateBuffer (byteCount : Nat) (env : AllocEnv) (taken : Except Raised Unit)
  /-- A `Buffer` of another backend comes into being. -/
  | otherBuffer (bytes : List UInt8)
  | reference (o : Nat)
  | unreference (o : Nat)
  | readBuffer (o : Nat) (e : AccessEnv)
  | deriveView (k : Nat)
  | releaseView (k : Nat)
  /-- An element of a view of access `k`. -/
  | load (k offset : Nat)
  | writeBuffer (o : Nat) (e : AccessEnv)
  | scope (k : Nat) (op : PyOp)
  | dropScope (k : Nat)
  /-- An assignment to an element of view `v` of scope `k`. -/
  | store (k v offset : Nat) (byte : UInt8)
  | publish (o : Nat) (gid : Proc.GidKey) (e : Proc.DescriptorEnv)
  | onDiscoveringEndpoint (gid : Proc.GidKey) (supported : Option String)
  | outside (act : Outside)

namespace System

/-- One call; what the program does not have it cannot name (`none`), and nothing else is undefined. -/
def exec (s : System) : Call → Option (System × Except Raised Value)
  | .allocateBuffer byteCount env taken => s.allocateBuffer byteCount env taken
  | .otherBuffer bytes =>
    some ({ s with buffers := s.buffers ++ [some { content := .other bytes }] }, .ok (.buffer s.buffers.length))
  | .reference o => do
    let b ← s.buffer o
    guard (0 < b.refs)
    return (s.setBuffer o (some { b with refs := b.refs + 1 }), .ok .none)
  | .unreference o => do
    let b ← s.buffer o
    guard (0 < b.refs)
    return (← (s.setBuffer o (some { b with refs := b.refs - 1 })).collect o, .ok .none)
  | .readBuffer o e => s.readBuffer o e
  | .deriveView k => do
    let a ← s.access k
    return (s.setAccess k (some { a with views := a.views + 1 }), .ok .none)
  | .releaseView k => do
    let a ← s.access k
    if a.views = 1 then return (← s.destroyAccess k a, .ok .none)
    else return (s.setAccess k (some { a with views := a.views - 1 }), .ok .none)
  | .load k offset => do
    let a ← s.access k
    if offset < a.byteCount then
      let bytes ← s.world.shown a.handle a.byteCount
      let byte ← bytes[offset]?
      return (s, .ok (.byte byte))
    else return (s, .error .indexError)
  | .writeBuffer o e => s.writeBuffer o e
  | .scope k op => s.scopeCall k op
  | .dropScope k => s.dropScope k
  | .store k v offset byte => do
    let c ← s.scope k
    let view ← c.py.views[v]?
    guard (view.released = false)
    if offset < view.byteCount then
      let (s, _) ← s.call (.writeByte c.handle offset byte)
      return (s, .ok .none)
    else return (s, .error .indexError)
  | .publish o gid e => do
    let b ← s.buffer o
    guard (0 < b.refs)
    let impl := match b.content with
      | .shared i => some i
      | .other _ => none
    match ← s.call (.createDescriptor impl gid e) with
    | (s, .descriptor d) => return (s, .ok (.descriptor d))
    | _ => none
  | .onDiscoveringEndpoint gid supported => do
    let (s, _) ← s.call (.onDiscoveringEndpoint gid supported)
    return (s, .ok .none)
  | .outside act => do
    let (s, _) ← s.call (.outside act)
    return (s, .ok .none)

def step (s : System) (op : Call) : Option System := (s.exec op).map Prod.fst

/-- The start of a process. -/
def Init (s : System) : Prop := Proc.Init s.world ∧ s.buffers = [] ∧ s.reads = [] ∧ s.scopes = []

abbrev Reachable (s : System) : Prop := Machine.Reach step Init s

end System

end MemfdBuffer.Python
