import MemfdBuffer.Import.Outcome
import MemfdBuffer.BlockIds

/-!
# Publishers and a subscriber on one machine

Processes come and go, each with pools of its own, and a client of a socket path is sent the memfd that was
bound there last. A process ID is free again once its process has ended, a descriptor number once its pool is
gone. The subscriber lives on and imports whatever it is told of; what its accesses to a header find is open.
-/

namespace MemfdBuffer.Import

/-- A memfd, named by the block it was created for. -/
structure Memfd where
  process : Nat
  pool : Nat
  block : Nat
  size : Nat
deriving DecidableEq, Repr

structure PublisherPool where
  run : PoolRun := {}
  alive : Bool := true

structure Publisher where
  euid : Nat
  pid : Int
  pools : List PublisherPool := []
  alive : Bool := true

/-- One call of `import_block`, with the fields of a descriptor. -/
structure ImportCall where
  /-- The sizes and headers in it are replaced by those of the memfd. -/
  env : Env := {}
  view : Memfd → Access → SharedBufferControlHeader
  descriptor : Message

/-- The importing process. -/
structure Subscriber where
  world : World := {}
  /-- The memfd behind each mapped region. -/
  backing : List Memfd := []

structure System where
  /-- All processes there have been. -/
  publishers : List Publisher := []
  /-- By socket path, the memfd that a client is sent. -/
  listeners : String → Option Memfd := fun _ => none
  subscriber : Subscriber := {}

inductive Event
  | spawn (euid : Nat) (pid : Int)
  /-- A process ends without any destructor. -/
  | exit (p : Nat)
  | createPool (p : Nat)
  /-- `~SharedBufferMemoryPool`. -/
  | destroyPool (p k : Nat)
  | call (p k : Nat) (op : PoolOp)
  | importBlock (c : ImportCall)

/-- What the call meets where a client is sent `listener` and the header looked at is that of `mapped`. -/
def ImportCall.envAt (c : ImportCall) (listener mapped : Option Memfd) : Env :=
  { c.env with
    reply := { c.env.reply with
      connect := if listener.isSome then c.env.reply.connect else .error "Connection refused" }
    fstat := listener.bind fun m => c.env.fstat.map fun _ => Int64.ofNat m.size
    seen := fun access => mapped.elim (c.env.seen access) (c.view · access) }

namespace Subscriber
variable (s : Subscriber) (listeners : String → Option Memfd)

/-- The memory object that a block is a mapping of. -/
def memfdOf (block : SharedBufferImportedBlock) : Option Memfd := block.mapping.bind fun m => s.backing[m]?

/-- The process as it would be with nothing in its cache. -/
def forget : Subscriber := { s with world := { s.world with cache := fun _ => none } }

/-- Whose header a call looks at. -/
def target (d : Message) : Option Memfd :=
  match s.world.cache d.key with
  | some block => s.memfdOf block
  | none => listeners d.sharedBufferSocketPath

def importBlock (c : ImportCall) : Subscriber × Except Failure SharedBufferImportedBlock :=
  let d := c.descriptor
  let listener := listeners d.sharedBufferSocketPath
  match s.world.importBlock (c.envAt listener (s.target listeners d)) d.sharedBufferSocketPath d.sharedBufferPid
      d.sharedBufferBlockId d.sharedBufferBlockSize d.size d.ipcUid with
  | (world, r) =>
    ({ world := world
       backing := if world.mmaps.length = s.world.mmaps.length then s.backing else s.backing ++ listener.toList }, r)

end Subscriber

namespace Publisher
variable (publisher : Publisher)

/-- The pool, unless it is destroyed. -/
def livePool (k : Nat) : Option PublisherPool := publisher.pools[k]?.filter (·.alive)

/-- A descriptor number in use. -/
def opens (fd : Int) : Bool :=
  publisher.pools.any fun pool => pool.alive && pool.run.pool.allBlocks.any (·.nativeHandle == fd)

/-- The answers in a call are those of this process: no number in use is handed out again. -/
def permits : PoolOp → Bool
  | .allocate _ e =>
    match e.mapping with
    | .ok fd => decide (0 ≤ fd) && !publisher.opens fd
    | .error _ => true
  | .register _ euid pid _ => euid == publisher.euid && pid == publisher.pid
  | _ => true

end Publisher

/-- The path that a first registration binds, or unlinks where it fails, with the memfd served there from then
on. -/
def rebinds (p k : Nat) (pool : Pool) : PoolOp → Option (String × Option Memfd)
  | .register b euid pid socket =>
    match pool.allBlocks[b]? with
    | none => none
    | some block =>
      if block.nativeHandle < 0 ∨ (pool.registeredBlocks block.blockId).isSome then none
      else
        let memfd : Memfd := { process := p, pool := k, block := b, size := block.mappedSize }
        some (blockSocketPath euid pid block.blockId block.nativeHandle,
          match socket with
          | .ok _ => some memfd
          | .error _ => none)
  | _ => none

def rebound (listeners : String → Option Memfd) : Option (String × Option Memfd) → String → Option Memfd
  | some (path, memfd) => Function.update listeners path memfd
  | none => listeners

/-- The listeners when `~SharedBufferFdBroker` has unlinked the paths of its registrations. -/
def unlinked (listeners : String → Option Memfd) (pool : Pool) (path : String) : Option Memfd :=
  if pool.allBlocks.any fun block => pool.registeredBlocks block.blockId == some path then none else listeners path

namespace System
variable (s : System)

/-- The process, unless it has ended. -/
def running (p : Nat) : Option Publisher := s.publishers[p]?.filter (·.alive)

def setPool (p k : Nat) (publisher : Publisher) (pool : PublisherPool) : System :=
  { s with publishers := s.publishers.set p { publisher with pools := publisher.pools.set k pool } }

def step : Event → Option System
  | .spawn euid pid =>
    if pid ≤ 0 ∨ s.publishers.any fun publisher => publisher.alive && publisher.pid == pid then none
    else some { s with publishers := s.publishers ++ [{ euid := euid, pid := pid }] }
  | .exit p =>
    match s.running p with
    | none => none
    | some publisher =>
      some { s with
        publishers := s.publishers.set p { publisher with alive := false }
        listeners := fun path => (s.listeners path).filter (·.process != p) }
  | .createPool p =>
    match s.running p with
    | none => none
    | some publisher =>
      some { s with publishers := s.publishers.set p { publisher with pools := publisher.pools ++ [{}] } }
  | .destroyPool p k =>
    match s.running p with
    | none => none
    | some publisher =>
      match publisher.livePool k with
      | none => none
      | some pool =>
        some { s.setPool p k publisher { pool with alive := false } with
          listeners := unlinked s.listeners pool.run.pool }
  | .call p k op =>
    match s.running p with
    | none => none
    | some publisher =>
      match publisher.livePool k with
      | none => none
      | some pool =>
        if publisher.permits op then
          (pool.run.step op).map fun run =>
            { s.setPool p k publisher { pool with run := run } with
              listeners := rebound s.listeners (rebinds p k pool.run.pool op) }
        else none
  | .importBlock c => some { s with subscriber := (s.subscriber.importBlock s.listeners c).1 }

/-- If the call would succeed with an empty cache it succeeds, with a mapping of the same memory object. -/
def Transparent (c : ImportCall) : Prop :=
  ∀ s₀ block₀, s.subscriber.forget.importBlock s.listeners c = (s₀, .ok block₀) →
    ∃ s₁ block₁, s.subscriber.importBlock s.listeners c = (s₁, .ok block₁) ∧
      ∃ m, s₀.memfdOf block₀ = some m ∧ s₁.memfdOf block₁ = some m

/-- The pool, destroyed or not. -/
def poolAt (p k : Nat) : Option PublisherPool := s.publishers[p]?.bind fun publisher => publisher.pools[k]?

/-- The path and the memfd of a first registration. -/
def binds : Event → Option (String × Memfd)
  | .call p k op =>
    (s.poolAt p k).bind fun pool =>
      match rebinds p k pool.run.pool op with
      | some (path, some m) => some (path, m)
      | _ => none
  | _ => none

/-- No first registration binds a path that the subscriber has a mapping under. -/
def KeepsIdentity (event : Event) : Prop :=
  ∀ path m, s.binds event = some (path, m) → ∀ key : CacheKey, key.ipcName = path → s.subscriber.world.cache key = none

end System

end MemfdBuffer.Import
