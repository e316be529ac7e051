import MemfdBuffer.Pool
import MemfdBuffer.Lib.FdTable
import MemfdBuffer.Lib.Machine

/-!
# The broker's registry

`register_block` and the destructor of `SharedBufferFdBroker` over a table of descriptors and the socket
files, with the system calls failing as they like. The dispatcher's thread only opens and closes clients
of its own, so nothing here sees it.
-/

namespace MemfdBuffer

/-- `Impl::RegisteredBlock`. -/
structure RegisteredBlock where
  serverSocket : Nat
  socketPath : String
deriving DecidableEq, Repr

/-- What a descriptor refers to. -/
inductive KernelObject
  | memfd (block : Nat)
  /-- A socket made for the path. -/
  | listener (path : String)
  | epoll
  | event
deriving DecidableEq, Repr

/-- The answers of the system calls in one `register_block`; a new descriptor comes with its number. The allocations
of the maps and strings are taken to succeed. -/
structure RegisterEnv where
  socket : Option Nat := none
  bind : Bool := true
  listen : Bool := true
  chmod : Bool := true
  dup : Option Nat := none
  epollCtl : Bool := true
  /-- `strerror(errno)`. -/
  message : String := ""
deriving DecidableEq, Repr

structure Broker where
  euid : Nat := 0
  pid : Int := 1
  table : FdTable KernelObject := {}
  /-- The socket files. -/
  files : String → Bool := fun _ => false
  /-- The blocks of the pool. -/
  blocks : List SharedBufferBlock := []
  registeredBlocks : List (UInt32 × RegisteredBlock) := []
  /-- The dispatcher's `sockets_`. -/
  sockets : List (Nat × Nat) := []
  /-- `running_`. -/
  running : Bool := true
  epollFd : Option Nat := none
  eventFd : Option Nat := none
  /-- The destructor has not run. -/
  alive : Bool := true
  -- history
  /-- The listening sockets and duplicates ever made. -/
  made : List Nat := []
  registeredPaths : List String := []

namespace Broker
variable (s : Broker)

def pathOf (block : SharedBufferBlock) : String := blockSocketPath s.euid s.pid block.blockId block.nativeHandle

/-- A system call hands out a descriptor; no result where the number is in use. -/
def openFd (n : Nat) (x : KernelObject) : Option Broker :=
  (s.table.openAt n x).map fun t => { s with table := t, made := s.made ++ [s.table.descs.length] }

def closeFd (n : Nat) : Broker := { s with table := s.table.close n }

def unlink (path : String) : Broker := { s with files := Function.update s.files path false }

/-- `create_fd_server_socket`. -/
def createFdServerSocket (e : RegisterEnv) (path : String) : Option (Broker × Option Nat) :=
  if path = "" ∨ sunPathSize ≤ path.utf8ByteSize then some (s, none)
  else
    match e.socket with
    | none => some (s, none)
    | some socket => do
      let s ← s.openFd socket (.listener path)
      let s := s.unlink path
      if e.bind = false then return ((s.closeFd socket).unlink path, none)
      else
        let s := { s with files := Function.update s.files path true }
        if e.listen = false ∨ e.chmod = false then return ((s.closeFd socket).unlink path, none)
        else return (s, some socket)

/-- `sockets_.erase`. -/
def eraseSocket (serverSocket : Nat) : Broker :=
  { s with sockets := s.sockets.filter fun item => item.1 ≠ serverSocket }

/-- `FDDispatcher::add_socket`. -/
def addSocket (e : RegisterEnv) (serverSocket fdToServe : Nat) : Option (Broker × Bool) :=
  if s.running = false then some (s, false)
  else
    match e.dup, s.table.object fdToServe with
    | some duplicated, some x => do
      let s ← s.openFd duplicated x
      let s := { s.eraseSocket serverSocket with
        sockets := (serverSocket, duplicated) :: (s.eraseSocket serverSocket).sockets }
      if e.epollCtl = false then return ((s.eraseSocket serverSocket).closeFd duplicated, false)
      else return (s, true)
    | _, _ => some (s, false)

/-- The branch of `register_block` that throws. -/
def refuse (e : RegisterEnv) (path : String) (socket : Option Nat) : Broker × Except Exn String :=
  let s := match socket with
    | some n => s.closeFd n
    | none => s
  (s.unlink path, .error (.runtimeError ("failed to create shared-memory FD broker socket: " ++ e.message)))

/-- `register_block` on block `b` of the pool. -/
def registerBlock (e : RegisterEnv) (b : Nat) : Option (Broker × Except Exn String) := do
  let block ← s.blocks[b]?
  if block.nativeHandle < 0 then return (s, .ok "")
  else
    match s.registeredBlocks.lookup block.blockId with
    | some existing => return (s, .ok existing.socketPath)
    | none =>
      let path := s.pathOf block
      let (s, socket) ← s.createFdServerSocket e path
      match socket with
      | none => return s.refuse e path none
      | some n =>
        let (s, added) ← s.addSocket e n block.nativeHandle.toNat
        if added = false then return s.refuse e path (some n)
        else
          return ({ s with
            registeredBlocks := (block.blockId, { serverSocket := n, socketPath := path }) :: s.registeredBlocks
            blocks := s.blocks.set b { block with socketPath := path }
            registeredPaths := s.registeredPaths ++ [path] }, .ok path)

/-- `FDDispatcher::remove_socket`; taking the socket off the epoll set changes nothing here. -/
def removeSocket (serverSocket : Nat) : Broker :=
  let descriptor := s.sockets.lookup serverSocket
  let s := (s.eraseSocket serverSocket).closeFd serverSocket
  match descriptor with
  | some n => s.closeFd n
  | none => s

/-- `FDDispatcher::stop`. -/
def stop : Broker :=
  if s.running = false then s
  else
    let s := s.sockets.foldl (fun s item => (s.closeFd item.1).closeFd item.2) { s with running := false }
    let s := { s with sockets := [] }
    let s := match s.eventFd with
      | some n => { s.closeFd n with eventFd := none }
      | none => s
    match s.epollFd with
    | some n => { s.closeFd n with epollFd := none }
    | none => s

/-- What the destructor does to one entry of `registered_blocks`. -/
def removeBlock (item : UInt32 × RegisteredBlock) : Broker :=
  (s.removeSocket item.2.serverSocket).unlink item.2.socketPath

/-- `~SharedBufferFdBroker`; `order` is the order in which it meets the entries of the map. -/
def destroy (order : List (UInt32 × RegisteredBlock)) : Option Broker :=
  if order.isPerm s.registeredBlocks then
    some { (({ order.foldl removeBlock s with registeredBlocks := [] } : Broker).stop) with alive := false }
  else none

/-- The pool makes a block, with an id that no other block of it has. -/
def createBlock (n : Nat) (id : UInt32) : Option Broker :=
  if (s.blocks.map (·.blockId)).contains id then none
  else
    (s.table.openAt n (.memfd s.blocks.length)).map fun t =>
      { s with table := t, blocks := s.blocks ++ [{ nativeHandle := n, blockId := id }] }

end Broker

inductive BrokerOp
  | createBlock (n : Nat) (id : UInt32)
  | register (e : RegisterEnv) (b : Nat)
  | destroy (order : List (UInt32 × RegisteredBlock))

namespace Broker

def step (s : Broker) (op : BrokerOp) : Option Broker :=
  if s.alive = false then none
  else
    match op with
    | .createBlock n id => s.createBlock n id
    | .register e b => (s.registerBlock e b).map Prod.fst
    | .destroy order => s.destroy order

/-- The descriptors of the dispatcher itself. -/
def ownFds (s : Broker) : List Nat := s.eventFd.toList ++ s.epollFd.toList

/-- A broker that has just been made; its dispatcher may have failed to start. -/
structure Init (s : Broker) : Prop where
  table : s.table.Wf
  closes : none ∉ s.table.closes
  open_ {n : Nat} : n ∈ s.ownFds → s.table.fds n ≠ none
  distinct : s.ownFds.Nodup
  blocks : s.blocks = []
  registeredBlocks : s.registeredBlocks = []
  sockets : s.sockets = []
  alive : s.alive = true
  made : s.made = []
  registeredPaths : s.registeredPaths = []

abbrev Reachable (s : Broker) : Prop := Machine.Reach step Init s

end Broker

end MemfdBuffer
