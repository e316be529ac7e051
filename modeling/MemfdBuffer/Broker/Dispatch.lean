import MemfdBuffer.Lib.Machine
import Mathlib.Data.List.Perm.Basic
import Mathlib.Logic.Function.Basic

/-!
# The dispatcher's thread and the others

The fd table of a publisher, and a step for each system call and each section under the dispatcher's mutex:
the dispatcher in its loop, one caller in `register_block` or in the destructor (they hold the broker's own
mutex throughout), and other threads that open and close descriptors of their own. A number that has been
closed goes to whoever opens next.
-/

namespace MemfdBuffer

/-- What a number of the fd table refers to. -/
inductive FileObject
  | memfd (b : Nat)
  /-- The broker's listening socket at the path of block `b`. -/
  | listener (b : Nat)
  /-- An accepted connection, made to the path of block `b` or elsewhere. -/
  | client (b : Option Nat)
  | event
  | epoll
  /-- What another thread has opened; it may be a listening socket too. -/
  | foreign (tag : Nat)
deriving DecidableEq, Repr

/-- An entry of `sockets_`. -/
structure SocketEntry where
  serverSocket : Nat
  descriptor : Nat
  -- history
  block : Nat
deriving DecidableEq, Repr

/-- Where the thread in `register_block` or in the destructor stands: the next call it makes. -/
inductive CallerPc
  | idle
  | socket (b : Nat)
  /-- `bind`, `listen` and `chmod`, which leave the fd table alone. -/
  | bind (b n : Nat)
  | dup (b n : Nat)
  | insert (b n k : Nat)
  | epollAdd (b n k : Nat)
  | undo (b n k : Nat)
  | closeServer (b n : Nat)
  /-- The destructor before its next entry. -/
  | remove (rest : List (Nat × Nat))
  | epollDel (b n : Nat) (k : Option Nat) (rest : List (Nat × Nat))
  | closeSocket (b n : Nat) (k : Option Nat) (rest : List (Nat × Nat))
  | closeDescriptor (b k : Nat) (rest : List (Nat × Nat))
  | stop
  | join
  /-- What `stop` does behind the join, under the mutex. -/
  | finish
  | gone
deriving DecidableEq, Repr

/-- Where the dispatcher stands; `l` are the events still to be looked at. -/
inductive DispatcherPc
  | loop
  | wait
  | events (l : List Nat)
  /-- `fd_to_serve` has been looked up for `socket`. -/
  | accept (socket fdToServe : Nat) (l : List Nat)
  | send (client fdToServe : Nat) (l : List Nat)
  | close (client : Nat) (l : List Nat)
  | done
deriving DecidableEq, Repr

structure Dispatch where
  table : Nat → Option FileObject := fun _ => none
  /-- The `native_handle` of each block. -/
  handles : List Nat := []
  /-- `registered_blocks`: a block and its `server_socket`. -/
  registeredBlocks : List (Nat × Nat) := []
  sockets : List SocketEntry := []
  /-- The sockets in the epoll set. -/
  interest : List Nat := []
  running : Bool := true
  eventFd : Nat := 0
  epollFd : Nat := 1
  caller : CallerPc := .idle
  dispatcher : DispatcherPc := .loop
  /-- Which files of other threads, by tag, are listening sockets on which `accept4` waits for a client. -/
  listens : Nat → Bool := fun _ => false
  -- history
  /-- What each `accept4` was performed on. -/
  accepts : List (Option FileObject) := []
  /-- The block whose path the client had connected to, and what it was sent. -/
  deliveries : List (Option Nat × FileObject) := []

inductive DispatchOp
  /-- The pool makes a block. -/
  | createBlock (n : Nat)
  | openOther (n tag : Nat)
  | closeOther (n : Nat)
  | registerBlock (b : Nat)
  /-- The destructor; `order` is the order in which it meets the entries of `registered_blocks`. -/
  | destroy (order : List (Nat × Nat))
  /-- The caller's next step; `none` is a failing system call, `some n` a number that it hands out. -/
  | caller (answer : Option Nat)
  /-- The dispatcher's next step, with what `epoll_wait` and `accept4` return. -/
  | dispatcher (events : Option (List Nat)) (client : Option Nat)

namespace Dispatch
variable (s : Dispatch)

/-- A system call hands out number `n`. -/
def openFd (n : Nat) (x : FileObject) : Option Dispatch :=
  if s.table n = none then some { s with table := Function.update s.table n (some x) } else none

/-- A closed listening socket leaves the epoll set by itself. -/
def closeFd (n : Nat) : Dispatch :=
  { s with table := Function.update s.table n none, interest := s.interest.filter (· ≠ n) }

def setCaller (pc : CallerPc) : Dispatch := { s with caller := pc }

def setDispatcher (pc : DispatcherPc) : Dispatch := { s with dispatcher := pc }

def find (n : Nat) : Option SocketEntry := s.sockets.find? fun entry => entry.serverSocket = n

def eraseSocket (n : Nat) : Dispatch := { s with sockets := s.sockets.filter fun entry => entry.serverSocket ≠ n }

/-- The calls of `register_block`, `add_socket`, `remove_socket` and `stop`. -/
def callerStep (answer : Option Nat) : CallerPc → Option Dispatch
  | .idle => none
  | .socket b =>
    match answer with
    | none => some (s.setCaller .idle)
    | some n => (s.openFd n (.listener b)).map (·.setCaller (.bind b n))
  | .bind b n =>
    match answer with
    | none => some (s.setCaller (.closeServer b n))
    | some _ => some (s.setCaller (.dup b n))
  | .dup b n =>
    match answer, (s.handles[b]?).bind s.table with
    | some k, some x =>
      if s.running = false then some (s.setCaller (.closeServer b n))
      else (s.openFd k x).map (·.setCaller (.insert b n k))
    | _, _ => some (s.setCaller (.closeServer b n))
  | .insert b n k =>
    let entry : SocketEntry := { serverSocket := n, descriptor := k, block := b }
    some ({ s.eraseSocket n with sockets := entry :: (s.eraseSocket n).sockets }.setCaller (.epollAdd b n k))
  | .epollAdd b n k =>
    match answer with
    | none => some (s.setCaller (.undo b n k))
    | some _ =>
      some ({ s with interest := n :: s.interest, registeredBlocks := (b, n) :: s.registeredBlocks }.setCaller .idle)
  | .undo b n k => some (((s.eraseSocket n).closeFd k).setCaller (.closeServer b n))
  | .closeServer _ n => some ((s.closeFd n).setCaller .idle)
  | .remove [] => some (s.setCaller .stop)
  | .remove ((b, n) :: rest) =>
    some ((s.eraseSocket n).setCaller (.epollDel b n ((s.find n).map (·.descriptor)) rest))
  | .epollDel b n k rest =>
    some ({ s with interest := s.interest.filter (· ≠ n) }.setCaller (.closeSocket b n k rest))
  | .closeSocket b n k rest =>
    some ((s.closeFd n).setCaller (match k with | some k => .closeDescriptor b k rest | none => .remove rest))
  | .closeDescriptor _ k rest => some ((s.closeFd k).setCaller (.remove rest))
  | .stop => some ({ s with running := false }.setCaller .join)
  | .join => if s.dispatcher = .done then some (s.setCaller .finish) else none
  | .finish =>
    let s := s.sockets.foldl (fun s entry => (s.closeFd entry.serverSocket).closeFd entry.descriptor) s
    some ((({ s with sockets := [] }.closeFd s.eventFd).closeFd s.epollFd).setCaller .gone)
  | .gone => none

/-- Whose clients a socket brings; `accept4` fails on anything else. -/
def origin : FileObject → Option (Option Nat)
  | .listener b => some (some b)
  | .foreign _ => some none
  | _ => none

/-- The dispatcher calls `accept4` on a listening socket of another thread, which has got a number of the broker. No
client need ever come there: the call may last for ever. -/
def Waits : Prop :=
  match s.dispatcher with
  | .accept n _ _ => ∃ tag, s.table n = some (.foreign tag) ∧ s.listens tag = true
  | _ => False

/-- The loop of `run`. An `accept4` may always fail; whether it returns at all, `Waits` says. -/
def dispatcherStep (events : Option (List Nat)) (client : Option Nat) : DispatcherPc → Option Dispatch
  | .loop => some (s.setDispatcher (if s.running = true then .wait else .done))
  | .wait =>
    match events with
    | none => some (s.setDispatcher .done)
    | some l =>
      if l.length ≤ 16 ∧ ∀ n ∈ l, n ∈ s.interest ∨ n = s.eventFd then some (s.setDispatcher (.events l)) else none
  | .events [] => some (s.setDispatcher .loop)
  | .events (n :: l) =>
    if n = s.eventFd then some (s.setDispatcher (.events l))
    else
      match s.find n with
      | none => some (s.setDispatcher (.events l))
      | some entry => some (s.setDispatcher (.accept n entry.descriptor l))
  | .accept n k l =>
    let s := { s with accepts := s.accepts ++ [s.table n] }
    match client with
    | none => some (s.setDispatcher (.events l))
    | some c => do
      let o ← origin (← s.table n)
      return (← s.openFd c (.client o)).setDispatcher (.send c k l)
  | .send c k l =>
    match s.table c, s.table k with
    | some (.client o), some x => some ({ s with deliveries := s.deliveries ++ [(o, x)] }.setDispatcher (.close c l))
    | _, _ => some (s.setDispatcher (.close c l))
  | .close c l => some ((s.closeFd c).setDispatcher (.events l))
  | .done => none

def step (s : Dispatch) : DispatchOp → Option Dispatch
  | .createBlock n => (s.openFd n (.memfd s.handles.length)).map fun s => { s with handles := s.handles ++ [n] }
  | .openOther n tag => s.openFd n (.foreign tag)
  | .closeOther n =>
    match s.table n with
    | some (.foreign _) => some (s.closeFd n)
    | _ => none
  | .registerBlock b =>
    if s.caller = .idle ∧ b < s.handles.length then
      some (if b ∈ s.registeredBlocks.map Prod.fst then s else s.setCaller (.socket b))
    else none
  | .destroy order =>
    if s.caller = .idle ∧ order.isPerm s.registeredBlocks then some (s.setCaller (.remove order)) else none
  | .caller answer => s.callerStep answer s.caller
  | .dispatcher events client => s.dispatcherStep events client s.dispatcher

/-- A broker that has just started, before any block. -/
structure Init (s : Dispatch) : Prop where
  handles : s.handles = []
  registeredBlocks : s.registeredBlocks = []
  sockets : s.sockets = []
  caller : s.caller = .idle
  dispatcher : s.dispatcher = .loop
  accepts : s.accepts = []
  deliveries : s.deliveries = []
  eventFd : s.table s.eventFd = some .event
  epollFd : s.table s.epollFd = some .epoll

abbrev Reachable (s : Dispatch) : Prop := Machine.Reach step Init s

/-- What clients get is the memfd of the block they asked for, and only the broker's sockets are accepted on. -/
structure Serves (s : Dispatch) : Prop where
  deliveries {b : Nat} {x : FileObject} : (some b, x) ∈ s.deliveries → x = .memfd b
  accepts {a : Option FileObject} : a ∈ s.accepts → ∃ b, a = some (.listener b)

/-- The numbers that the caller's next step closes. -/
def closing (s : Dispatch) : List Nat :=
  match s.caller with
  | .undo _ _ k => [k]
  | .closeServer _ n => [n]
  | .closeSocket _ n _ _ => [n]
  | .closeDescriptor _ k _ => [k]
  | _ => []

/-- The numbers that the dispatcher has looked up and will use again. -/
def inHand (s : Dispatch) : List Nat :=
  match s.dispatcher with
  | .accept n k _ => [n, k]
  | .send _ k _ => [k]
  | _ => []

/-- The broker does not close a number while the dispatcher has it in hand. -/
def Undisturbed (s : Dispatch) : DispatchOp → Prop
  | .caller _ => ∀ n ∈ s.closing, n ∉ s.inHand
  | _ => True

instance (s : Dispatch) (op : DispatchOp) : Decidable (Undisturbed s op) := by
  unfold Undisturbed
  split <;> infer_instance

end Dispatch

end MemfdBuffer
