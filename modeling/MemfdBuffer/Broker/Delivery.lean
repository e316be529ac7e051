import MemfdBuffer.Broker.Dispatch
import MemfdBuffer.Lib.Tally
import Mathlib.Data.List.Nodup

/-!
# Whose descriptor a client gets

Every entry of the dispatcher's map pairs the listening socket of a block with a duplicate of the block's own
memfd, and no number in an entry is closed while the entry is there. What the dispatcher has copied out of
the map stays right as long as nobody closes it in between.
-/

namespace MemfdBuffer

namespace CallerPc

/-- The registered blocks whose entries are still in the map. -/
def pending (registeredBlocks : List (Nat × Nat)) : CallerPc → List (Nat × Nat)
  | .remove rest | .epollDel _ _ _ rest | .closeSocket _ _ _ rest | .closeDescriptor _ _ rest => rest
  | .stop | .join | .finish | .gone => []
  | _ => registeredBlocks

/-- The block that is in the map and not yet registered. -/
def entering : CallerPc → Option Nat
  | .epollAdd b _ _ | .undo b _ _ => some b
  | _ => none

end CallerPc

namespace Dispatch

/-- The numbers of an entry mean what they should. -/
structure Entry (table : Nat → Option FileObject) (handles : List Nat) (entry : SocketEntry) : Prop where
  serverSocket : table entry.serverSocket = some (.listener entry.block)
  descriptor : table entry.descriptor = some (.memfd entry.block)
  duplicate : entry.descriptor ∉ handles

/-- The blocks and the dispatcher's map. -/
structure Core (table : Nat → Option FileObject) (handles : List Nat) (sockets : List SocketEntry) : Prop where
  memfds {b n : Nat} : handles[b]? = some n → table n = some (.memfd b)
  entries {entry : SocketEntry} : entry ∈ sockets → Entry table handles entry
  blocks : (sockets.map (·.block)).Nodup

/-- A block has an entry in the map. -/
def Mapped (sockets : List SocketEntry) (b : Nat) : Prop := ∃ entry ∈ sockets, entry.block = b

/-- What the caller knows of the numbers in its hands. -/
def Stands (table : Nat → Option FileObject) (handles : List Nat) (sockets : List SocketEntry) : CallerPc → Prop
  | .idle | .remove _ | .stop | .join | .finish | .gone => True
  | .socket b => ¬ Mapped sockets b
  | .bind b n | .dup b n | .closeServer b n => ¬ Mapped sockets b ∧ table n = some (.listener b)
  | .insert b n k => ¬ Mapped sockets b ∧ table n = some (.listener b) ∧ table k = some (.memfd b) ∧ k ∉ handles
  | .epollAdd b n k | .undo b n k => { serverSocket := n, descriptor := k, block := b } ∈ sockets
  | .epollDel b n k _ | .closeSocket b n k _ =>
    ¬ Mapped sockets b ∧ table n = some (.listener b) ∧ ∀ k' ∈ k, table k' = some (.memfd b) ∧ k' ∉ handles
  | .closeDescriptor b k _ => ¬ Mapped sockets b ∧ table k = some (.memfd b) ∧ k ∉ handles

/-- What the dispatcher knows of the numbers in its hands. -/
def Faces (table : Nat → Option FileObject) : DispatcherPc → Prop
  | .accept n k _ => ∃ b, table n = some (.listener b) ∧ table k = some (.memfd b)
  | .send c k _ => ∃ o, table c = some (.client o) ∧ ∀ b, o = some b → table k = some (.memfd b)
  | .close c _ => ∃ o, table c = some (.client o)
  | _ => True

/-- The map and the registry tell of the same blocks. -/
structure Ledger (sockets : List SocketEntry) (pending : List (Nat × Nat)) (entering : Option Nat) : Prop where
  listed {entry : SocketEntry} : entry ∈ sockets → entry.block ∈ pending.map Prod.fst ∨ entering = some entry.block
  mapped {b n : Nat} : (b, n) ∈ pending → ∃ entry ∈ sockets, entry.block = b ∧ entry.serverSocket = n
  distinct : (pending.map Prod.fst).Nodup
  fresh {b : Nat} : entering = some b → b ∉ pending.map Prod.fst

/-- The dispatcher's own descriptors. -/
structure Own (table : Nat → Option FileObject) (eventFd epollFd : Nat) : Prop where
  event : table eventFd = some .event
  epoll : table epollFd = some .epoll

structure Inv (s : Dispatch) : Prop where
  own : s.caller ≠ .gone → Own s.table s.eventFd s.epollFd
  core : Core s.table s.handles s.sockets
  ledger : Ledger s.sockets (s.caller.pending s.registeredBlocks) s.caller.entering
  stands : Stands s.table s.handles s.sockets s.caller
  faces : Faces s.table s.dispatcher
  serves : Serves s

/-- Every number that is open stays what it is. -/
def Grows (table table' : Nat → Option FileObject) : Prop := ∀ n x, table n = some x → table' n = some x

section
variable {s s' : Dispatch} {table table' : Nat → Option FileObject} {handles : List Nat} {sockets : List SocketEntry}
  {pending : List (Nat × Nat)} {entering : Option Nat} {entry : SocketEntry} {b n k m c : Nat}
    {x : FileObject} {o : Option Nat}
  {pc : CallerPc} {d : DispatcherPc} {answer : Option Nat}

/-! ### Opening -/

theorem grows_update (h : table n = none) : Grows table (Function.update table n (some x)) := by
  intro m y hm
  rw [Function.update_of_ne, hm]
  rintro rfl
  rw [h] at hm
  cases hm

theorem openFd_eq_some : s.openFd n x = some s' ↔
    s.table n = none ∧ s' = { s with table := Function.update s.table n (some x) } := by
  unfold openFd
  split
  · rename_i h
    rw [Option.some.injEq]
    exact ⟨fun hs => ⟨h, hs.symm⟩, fun hs => hs.2.symm⟩
  · rename_i h
    constructor
    · intro hs
      cases hs
    · intro hs
      exact absurd hs.1 h

theorem Entry.grows (hg : Grows table table') (h : Entry table handles entry) : Entry table' handles entry :=
  ⟨hg _ _ h.serverSocket, hg _ _ h.descriptor, h.duplicate⟩

theorem Core.grows (hg : Grows table table') (h : Core table handles sockets) : Core table' handles sockets :=
  ⟨fun hb => hg _ _ (h.memfds hb), fun he => (h.entries he).grows hg, h.blocks⟩

theorem Stands.grows (hg : Grows table table') (h : Stands table handles sockets pc) :
    Stands table' handles sockets pc := by
  cases pc <;> simp only [Stands] at h ⊢
  case socket => exact h
  case bind => exact ⟨h.1, hg _ _ h.2⟩
  case dup => exact ⟨h.1, hg _ _ h.2⟩
  case insert => exact ⟨h.1, hg _ _ h.2.1, hg _ _ h.2.2.1, h.2.2.2⟩
  case epollAdd => exact h
  case undo => exact h
  case closeServer => exact ⟨h.1, hg _ _ h.2⟩
  case epollDel => exact ⟨h.1, hg _ _ h.2.1, fun k' hk => ⟨hg _ _ (h.2.2 k' hk).1, (h.2.2 k' hk).2⟩⟩
  case closeSocket => exact ⟨h.1, hg _ _ h.2.1, fun k' hk => ⟨hg _ _ (h.2.2 k' hk).1, (h.2.2 k' hk).2⟩⟩
  case closeDescriptor => exact ⟨h.1, hg _ _ h.2.1, h.2.2⟩

theorem Faces.grows (hg : Grows table table') (h : Faces table d) : Faces table' d := by
  cases d <;> simp only [Faces] at h ⊢
  case accept =>
    obtain ⟨b, h1, h2⟩ := h
    exact ⟨b, hg _ _ h1, hg _ _ h2⟩
  case send =>
    obtain ⟨o, h1, h2⟩ := h
    exact ⟨o, hg _ _ h1, fun b hb => hg _ _ (h2 b hb)⟩
  case close =>
    obtain ⟨o, h1⟩ := h
    exact ⟨o, hg _ _ h1⟩

theorem Own.grows {n m : Nat} (hg : Grows table table') (h : Own table n m) : Own table' n m :=
  ⟨hg _ _ h.event, hg _ _ h.epoll⟩

/-- An open elsewhere. -/
theorem Inv.grows (h : Inv s) (hg : Grows s.table table') : Inv { s with table := table' } :=
  ⟨fun hg' => (h.own hg').grows hg, h.core.grows hg, h.ledger, h.stands.grows hg, h.faces.grows hg,
    h.serves.deliveries, h.serves.accepts⟩

/-! ### Closing -/

theorem update_of_ne {y : FileObject} (hx : table m = some x) (hn : table n = some y) (h : x ≠ y) :
    Function.update table m none n = some y := by
  rw [Function.update_of_ne, hn]
  rintro rfl
  rw [hx] at hn
  cases hn
  exact h rfl

/-- A number can go that neither the blocks nor the map refer to. -/
structure Spared (handles : List Nat) (sockets : List SocketEntry) (m : Nat) : Prop where
  handles : m ∉ handles
  serverSocket {entry : SocketEntry} : entry ∈ sockets → entry.serverSocket ≠ m
  descriptor {entry : SocketEntry} : entry ∈ sockets → entry.descriptor ≠ m

theorem Core.close (hm : Spared handles sockets m) (h : Core table handles sockets) :
    Core (Function.update table m none) handles sockets := by
  refine ⟨fun {b n} hb => ?_, fun {entry} he => ⟨?_, ?_, (h.entries he).duplicate⟩, h.blocks⟩
  · rw [Function.update_of_ne, h.memfds hb]
    rintro rfl
    exact hm.handles (List.mem_of_getElem? hb)
  · rw [Function.update_of_ne (hm.serverSocket he), (h.entries he).serverSocket]
  · rw [Function.update_of_ne (hm.descriptor he), (h.entries he).descriptor]

/-- What no block refers to, and no entry of the map. -/
theorem Core.spared (h : Core table handles sockets) (hx : table m = some x) (hm : m ∉ handles)
    (h1 : ∀ {b}, x = .listener b → ¬ Mapped sockets b) (h2 : ∀ {b}, x = .memfd b → ¬ Mapped sockets b) :
    Spared handles sockets m := by
  refine ⟨hm, fun {entry} he hem => ?_, fun {entry} he hem => ?_⟩
  · have := (h.entries he).serverSocket
    rw [hem, hx] at this
    cases this
    exact h1 rfl ⟨entry, he, rfl⟩
  · have := (h.entries he).descriptor
    rw [hem, hx] at this
    cases this
    exact h2 rfl ⟨entry, he, rfl⟩

/-- The blocks refer to memfds. -/
theorem Core.not_handle (h : Core table handles sockets) (hx : table m = some x) (h2 : ∀ b, x ≠ .memfd b) :
    m ∉ handles := by
  intro hmem
  obtain ⟨i, hi⟩ := List.mem_iff_getElem?.1 hmem
  rw [h.memfds hi] at hx
  cases hx
  exact h2 _ rfl

/-- A socket of a block that is not in the map. -/
theorem Core.spared_listener (h : Core table handles sockets) (hx : table m = some (.listener b))
    (hb : ¬ Mapped sockets b) : Spared handles sockets m :=
  h.spared hx (h.not_handle hx (by simp)) (fun heq => by cases heq; exact hb) (fun heq => by cases heq)

/-- A duplicate for a block that is not in the map. -/
theorem Core.spared_memfd (h : Core table handles sockets) (hx : table m = some (.memfd b)) (hm : m ∉ handles)
    (hb : ¬ Mapped sockets b) : Spared handles sockets m :=
  h.spared hx hm (fun heq => by cases heq) (fun heq => by cases heq; exact hb)

/-- What is neither a socket of the broker nor a memfd. -/
theorem Core.spared_other (h : Core table handles sockets) (hx : table m = some x) (h1 : ∀ b, x ≠ .listener b)
    (h2 : ∀ b, x ≠ .memfd b) : Spared handles sockets m :=
  h.spared hx (h.not_handle hx h2) (fun heq => absurd heq (h1 _)) (fun heq => absurd heq (h2 _))

/-- The numbers of the dispatcher's clients are not the caller's to close. -/
theorem Faces.close (h : Faces s.table s.dispatcher) (hx : s.table m = some x) (hclient : ∀ o, x ≠ .client o)
    (hm : m ∉ s.inHand) : Faces (Function.update s.table m none) s.dispatcher := by
  unfold inHand at hm
  cases hd : s.dispatcher <;> rw [hd] at h hm <;> simp only [Faces] at h ⊢
  case accept n k l =>
    obtain ⟨b, h1, h2⟩ := h
    simp only [List.mem_cons, List.not_mem_nil, or_false, not_or] at hm
    exact ⟨b, by rw [Function.update_of_ne (Ne.symm hm.1), h1], by rw [Function.update_of_ne (Ne.symm hm.2), h2]⟩
  case send c k l =>
    obtain ⟨o, h1, h2⟩ := h
    simp only [List.mem_cons, List.not_mem_nil, or_false] at hm
    exact ⟨o, update_of_ne hx h1 (hclient o), fun b hb => by rw [Function.update_of_ne (Ne.symm hm), h2 b hb]⟩
  case close c l =>
    obtain ⟨o, h1⟩ := h
    exact ⟨o, update_of_ne hx h1 (hclient o)⟩

theorem Own.close {n k : Nat} (h : Own table n k) (hx : table m = some x) (h1 : x ≠ .event) (h2 : x ≠ .epoll) :
    Own (Function.update table m none) n k :=
  ⟨update_of_ne hx h.event h1, update_of_ne hx h.epoll h2⟩

/-- What is no socket of the broker, no memfd and no client is in nobody's hands. -/
theorem Faces.close_other (h : Faces table d) (hx : table m = some x) (h1 : ∀ b, x ≠ .listener b)
    (h2 : ∀ b, x ≠ .memfd b) (h3 : ∀ o, x ≠ .client o) : Faces (Function.update table m none) d := by
  cases d <;> simp only [Faces] at h ⊢
  case accept =>
    obtain ⟨b, hn, hk⟩ := h
    exact ⟨b, update_of_ne hx hn (h1 b), update_of_ne hx hk (h2 b)⟩
  case send =>
    obtain ⟨o, hc, hk⟩ := h
    exact ⟨o, update_of_ne hx hc (h3 o), fun b hb => update_of_ne hx (hk b hb) (h2 b)⟩
  case close =>
    obtain ⟨o, hc⟩ := h
    exact ⟨o, update_of_ne hx hc (h3 o)⟩

/-- The caller's numbers are sockets of the broker and memfds. -/
theorem Stands.close_other (h : Stands table handles sockets pc) (hx : table m = some x) (h1 : ∀ b, x ≠ .listener b)
    (h2 : ∀ b, x ≠ .memfd b) : Stands (Function.update table m none) handles sockets pc := by
  have hl {n b : Nat} (hn : table n = some (.listener b)) : Function.update table m none n = some (.listener b) :=
    update_of_ne hx hn (h1 b)
  have hf {n b : Nat} (hn : table n = some (.memfd b)) : Function.update table m none n = some (.memfd b) :=
    update_of_ne hx hn (h2 b)
  cases pc <;> simp only [Stands] at h ⊢
  case socket => exact h
  case bind => exact ⟨h.1, hl h.2⟩
  case dup => exact ⟨h.1, hl h.2⟩
  case insert => exact ⟨h.1, hl h.2.1, hf h.2.2.1, h.2.2.2⟩
  case epollAdd => exact h
  case undo => exact h
  case closeServer => exact ⟨h.1, hl h.2⟩
  case epollDel => exact ⟨h.1, hl h.2.1, fun k' hk => ⟨hf (h.2.2 k' hk).1, (h.2.2 k' hk).2⟩⟩
  case closeSocket => exact ⟨h.1, hl h.2.1, fun k' hk => ⟨hf (h.2.2 k' hk).1, (h.2.2 k' hk).2⟩⟩
  case closeDescriptor => exact ⟨h.1, hf h.2.1, h.2.2⟩

/-! ### The map -/

/-- Two entries differ in their socket if and only if they differ in their block. -/
theorem Core.serverSocket_inj {other : SocketEntry} (h : Core table handles sockets) (he : entry ∈ sockets)
    (ho : other ∈ sockets) : other.serverSocket = entry.serverSocket ↔ other.block = entry.block := by
  constructor
  · intro hs
    have h1 := (h.entries ho).serverSocket
    rw [hs, (h.entries he).serverSocket, Option.some.injEq, FileObject.listener.injEq] at h1
    exact h1.symm
  · intro hb
    rw [List.inj_on_of_nodup_map h.blocks ho he hb]

theorem Core.mem_erase {other : SocketEntry} (h : Core table handles sockets) (he : entry ∈ sockets) :
    other ∈ sockets.filter (fun e => decide (e.serverSocket ≠ entry.serverSocket)) ↔
      other ∈ sockets ∧ other.block ≠ entry.block := by
  rw [List.mem_filter, decide_eq_true_eq]
  constructor
  · rintro ⟨ho, hne⟩
    exact ⟨ho, fun hb => hne ((h.serverSocket_inj he ho).2 hb)⟩
  · rintro ⟨ho, hne⟩
    exact ⟨ho, fun hs => hne ((h.serverSocket_inj he ho).1 hs)⟩

/-- The map without the entry of one block. -/
theorem Core.erase (h : Core table handles sockets) (n : Nat) :
    Core table handles (sockets.filter fun e => decide (e.serverSocket ≠ n)) :=
  ⟨h.memfds, fun he => h.entries (List.mem_filter.1 he).1, h.blocks.sublist (List.filter_sublist.map _)⟩

theorem Core.not_mapped_erase (h : Core table handles sockets) (he : entry ∈ sockets) :
    ¬ Mapped (sockets.filter fun e => decide (e.serverSocket ≠ entry.serverSocket)) entry.block := by
  rintro ⟨other, ho, hb⟩
  exact ((h.mem_erase he).1 ho).2 hb

/-- A socket that is new to the map. -/
theorem Core.erase_fresh (h : Core table handles sockets) (hn : table n = some (.listener b))
    (hb : ¬ Mapped sockets b) :
    sockets.filter (fun e => decide (e.serverSocket ≠ n)) = sockets := by
  rw [List.filter_eq_self]
  intro e he
  exact decide_eq_true ((h.spared_listener hn hb).serverSocket he)

theorem Core.insert (h : Core table handles sockets) (hb : ¬ Mapped sockets b) (hn : table n = some (.listener b))
    (hk : table k = some (.memfd b)) (hdup : k ∉ handles) :
    Core table handles ({ serverSocket := n, descriptor := k, block := b } :: sockets) := by
  refine ⟨h.memfds, fun {e} he => ?_, ?_⟩
  · rcases List.mem_cons.1 he with rfl | he
    · exact ⟨hn, hk, hdup⟩
    · exact h.entries he
  · rw [List.map_cons, List.nodup_cons]
    refine ⟨fun hmem => ?_, h.blocks⟩
    obtain ⟨e, he, heb⟩ := List.mem_map.1 hmem
    exact hb ⟨e, he, heb⟩

namespace Ledger

theorem insert (h : Ledger sockets pending none) (hb : ¬ Mapped sockets b) :
    Ledger ({ serverSocket := n, descriptor := k, block := b } :: sockets) pending (some b) := by
  refine ⟨fun {e} he => ?_, fun {c m} hmem => ?_, h.distinct, fun {c} hc hmem => ?_⟩
  · rcases List.mem_cons.1 he with rfl | he
    · exact .inr rfl
    · rcases h.listed he with hl | hl
      · exact .inl hl
      · cases hl
  · obtain ⟨e, he, hrest⟩ := h.mapped hmem
    exact ⟨e, List.mem_cons_of_mem _ he, hrest⟩
  · cases hc
    obtain ⟨⟨c, m⟩, hmem, hc⟩ := List.mem_map.1 hmem
    obtain ⟨e, he, heb, -⟩ := h.mapped hmem
    exact hb ⟨e, he, heb.trans hc⟩

/-- The block in the map gets registered. -/
theorem register (h : Ledger sockets pending (some b))
    (he : { serverSocket := n, descriptor := k, block := b } ∈ sockets) : Ledger sockets ((b, n) :: pending) none := by
  refine ⟨fun {e} hmem => ?_, fun {c m} hmem => ?_, ?_, fun {c} hc => (by cases hc)⟩
  · rw [List.map_cons, List.mem_cons]
    rcases h.listed hmem with hl | hl
    · exact .inl (.inr hl)
    · cases hl
      exact .inl (.inl rfl)
  · rcases List.mem_cons.1 hmem with hmem | hmem
    · cases hmem
      exact ⟨_, he, rfl, rfl⟩
    · exact h.mapped hmem
  · rw [List.map_cons, List.nodup_cons]
    exact ⟨h.fresh rfl, h.distinct⟩

/-- The block in the map goes again. -/
theorem undo (h : Ledger sockets pending (some b)) (hc : Core table handles sockets) (he : entry ∈ sockets)
    (hb : entry.block = b) :
    Ledger (sockets.filter fun e => decide (e.serverSocket ≠ entry.serverSocket)) pending none := by
  refine ⟨fun {e} hmem => ?_, fun {c m} hmem => ?_, h.distinct, fun {c} hc => (by cases hc)⟩
  · obtain ⟨hmem, hne⟩ := (hc.mem_erase he).1 hmem
    rcases h.listed hmem with hl | hl
    · exact .inl hl
    · cases hl
      exact absurd hb.symm hne
  · obtain ⟨e, hmem', heb, hes⟩ := h.mapped hmem
    refine ⟨e, (hc.mem_erase he).2 ⟨hmem', fun hblock => ?_⟩, heb, hes⟩
    refine h.fresh rfl (List.mem_map.2 ⟨(c, m), hmem, ?_⟩)
    show c = b
    rw [← heb, hblock, hb]

/-- The destructor takes one registered block out of the map. -/
theorem remove (h : Ledger sockets ((b, n) :: pending) none) (hc : Core table handles sockets) (he : entry ∈ sockets)
    (hb : entry.block = b) :
    Ledger (sockets.filter fun e => decide (e.serverSocket ≠ entry.serverSocket)) pending none := by
  have hdistinct := h.distinct
  rw [List.map_cons, List.nodup_cons] at hdistinct
  refine ⟨fun {e} hmem => ?_, fun {c m} hmem => ?_, hdistinct.2, fun {c} hc => (by cases hc)⟩
  · obtain ⟨hmem, hne⟩ := (hc.mem_erase he).1 hmem
    rcases h.listed hmem with hl | hl
    · rw [List.map_cons, List.mem_cons] at hl
      rcases hl with hl | hl
      · exact absurd (hl.trans hb.symm) hne
      · exact .inl hl
    · cases hl
  · obtain ⟨e, hmem', heb, hes⟩ := h.mapped (List.mem_cons_of_mem _ hmem)
    refine ⟨e, (hc.mem_erase he).2 ⟨hmem', fun hblock => ?_⟩, heb, hes⟩
    refine hdistinct.1 (List.mem_map.2 ⟨(c, m), hmem, ?_⟩)
    show c = b
    rw [← heb, hblock, hb]

theorem perm {pending' : List (Nat × Nat)} (h : Ledger sockets pending entering) (hp : pending.Perm pending') :
    Ledger sockets pending' entering := by
  refine ⟨fun {e} he => ?_, fun {c m} hmem => h.mapped (hp.mem_iff.2 hmem), h.distinct.perm (hp.map _),
    fun {c} hc hmem => h.fresh hc ((hp.map _).mem_iff.2 hmem)⟩
  exact (h.listed he).imp_left (hp.map _).mem_iff.1

end Ledger

/-! ### The caller's steps -/

namespace Inv

theorem serves_of (h : Inv s) (hd : s'.deliveries = s.deliveries) (ha : s'.accepts = s.accepts) : Serves s' := by
  refine ⟨fun {b x} hmem => ?_, fun {a} hmem => ?_⟩
  · rw [hd] at hmem
    exact h.serves.deliveries hmem
  · rw [ha] at hmem
    exact h.serves.accepts hmem

/-- The caller closes a number that neither the blocks nor the map refer to. -/
theorem close (h : Inv s) (hok : ∀ n ∈ s.closing, n ∉ s.inHand) (hm : s.closing = [m]) (hx : s.table m = some x)
    (hkind : (∃ b, x = .listener b) ∨ ∃ b, x = .memfd b) (hcore : Core s.table s.handles sockets)
    (hs : Spared s.handles sockets m) (hpc : s.caller ≠ .gone)
    (hledger : Ledger sockets (pc.pending s.registeredBlocks) pc.entering)
    (hstands : Stands (Function.update s.table m none) s.handles sockets pc) :
    Inv { s with
      table := Function.update s.table m none
      interest := s.interest.filter (· ≠ m)
      sockets := sockets
      caller := pc } := by
  have hne : (∀ o, x ≠ .client o) ∧ x ≠ .event ∧ x ≠ .epoll := by
    rcases hkind with ⟨b, rfl⟩ | ⟨b, rfl⟩ <;> simp
  exact ⟨fun _ => (h.own hpc).close hx hne.2.1 hne.2.2, hcore.close hs, hledger, hstands,
    h.faces.close hx hne.1 (hok m (by rw [hm]; exact List.mem_cons_self ..)), h.serves.deliveries, h.serves.accepts⟩

theorem callerStep (h : Inv s) (hok : ∀ n ∈ s.closing, n ∉ s.inHand) (hst : s.callerStep answer s.caller = some s') :
    Inv s' := by
  have hl := h.ledger
  have hs := h.stands
  have hown := h.own
  cases hpc : s.caller <;> rw [hpc] at hst hl hs hown <;> simp only [Dispatch.callerStep] at hst
  case idle => cases hst
  case socket b =>
    split at hst
    · cases hst
      exact ⟨fun _ => hown (by simp), h.core, hl, trivial, h.faces, h.serves_of rfl rfl⟩
    · obtain ⟨s₁, ho, rfl⟩ := Option.map_eq_some_iff.1 hst
      obtain ⟨hfree, rfl⟩ := openFd_eq_some.1 ho
      have hg := grows_update (x := .listener b) hfree
      exact ⟨fun _ => (hown (by simp)).grows hg, h.core.grows hg, hl, ⟨hs, Function.update_self ..⟩, h.faces.grows hg,
        h.serves_of rfl rfl⟩
  case bind b n =>
    split at hst <;> cases hst <;> exact ⟨fun _ => hown (by simp), h.core, hl, hs, h.faces, h.serves_of rfl rfl⟩
  case dup b n =>
    split at hst
    · rename_i k x hk hx
      split at hst
      · cases hst
        exact ⟨fun _ => hown (by simp), h.core, hl, hs, h.faces, h.serves_of rfl rfl⟩
      · obtain ⟨s₁, ho, rfl⟩ := Option.map_eq_some_iff.1 hst
        obtain ⟨hfree, rfl⟩ := openFd_eq_some.1 ho
        obtain ⟨handle, hhandle, hx⟩ := Option.bind_eq_some_iff.1 hx
        rw [h.core.memfds hhandle] at hx
        cases hx
        have hg := grows_update (x := .memfd b) hfree
        refine ⟨fun _ => (hown (by simp)).grows hg, h.core.grows hg, hl,
          ⟨hs.1, hg _ _ hs.2, Function.update_self .., ?_⟩,
          h.faces.grows hg, h.serves_of rfl rfl⟩
        intro hmem
        obtain ⟨i, hi⟩ := List.mem_iff_getElem?.1 hmem
        rw [h.core.memfds hi] at hfree
        cases hfree
    · cases hst
      exact ⟨fun _ => hown (by simp), h.core, hl, hs, h.faces, h.serves_of rfl rfl⟩
  case insert b n k =>
    cases hst
    obtain ⟨hb, hn, hk, hdup⟩ := hs
    have hsame : (s.eraseSocket n).sockets = s.sockets := h.core.erase_fresh hn hb
    rw [hsame]
    exact ⟨fun _ => hown (by simp), h.core.insert hb hn hk hdup, hl.insert hb, List.mem_cons_self .., h.faces,
      h.serves_of rfl rfl⟩
  case epollAdd b n k =>
    split at hst
    · cases hst
      exact ⟨fun _ => hown (by simp), h.core, hl, hs, h.faces, h.serves_of rfl rfl⟩
    · cases hst
      exact ⟨fun _ => hown (by simp), h.core, hl.register hs, trivial, h.faces, h.serves_of rfl rfl⟩
  case undo b n k =>
    cases hst
    have hnot := h.core.not_mapped_erase hs
    have he := h.core.entries hs
    have hcore := h.core.erase n
    have hstands : Stands (Function.update s.table k none) s.handles
        (s.sockets.filter fun e => decide (e.serverSocket ≠ n)) (.closeServer b n) :=
      ⟨hnot, update_of_ne he.descriptor he.serverSocket (by simp)⟩
    exact h.close (m := k) hok (by rw [closing, hpc]) he.descriptor (.inr ⟨b, rfl⟩) hcore
      (hcore.spared_memfd he.descriptor he.duplicate hnot) (by rw [hpc]; simp) (hl.undo h.core hs rfl) hstands
  case closeServer b n =>
    cases hst
    exact h.close (m := n) hok (by rw [closing, hpc]) hs.2 (.inl ⟨b, rfl⟩) h.core
      (h.core.spared_listener hs.2 hs.1) (by rw [hpc]; simp) hl trivial
  case remove rest =>
    cases rest with
    | nil =>
      cases hst
      exact ⟨fun _ => hown (by simp), h.core, hl, trivial, h.faces, h.serves_of rfl rfl⟩
    | cons item rest =>
      obtain ⟨b, n⟩ := item
      cases hst
      obtain ⟨e, he, heb, hes⟩ := hl.mapped (List.mem_cons_self ..)
      subst hes
      subst heb
      refine ⟨fun _ => hown (by simp), h.core.erase _, hl.remove h.core he rfl,
        ⟨h.core.not_mapped_erase he, (h.core.entries he).serverSocket, fun k hk => ?_⟩, h.faces, h.serves_of rfl rfl⟩
      obtain ⟨e', hfind, rfl⟩ := Option.map_eq_some_iff.1 hk
      have hmem := List.mem_of_find?_eq_some hfind
      have hserver : e'.serverSocket = e.serverSocket := by simpa using List.find?_some hfind
      have hentry := h.core.entries hmem
      rw [← (h.core.serverSocket_inj he hmem).1 hserver]
      exact ⟨hentry.descriptor, hentry.duplicate⟩
  case epollDel b n k rest =>
    cases hst
    exact ⟨fun _ => hown (by simp), h.core, hl, hs, h.faces, h.serves_of rfl rfl⟩
  case closeSocket b n k rest =>
    cases hst
    obtain ⟨hb, hn, hk⟩ := hs
    have hspared := h.core.spared_listener hn hb
    cases k with
    | none =>
      exact h.close (m := n) hok (by rw [closing, hpc]) hn (.inl ⟨b, rfl⟩) h.core hspared (by rw [hpc]; simp) hl trivial
    | some k =>
      obtain ⟨hfile, hdup⟩ := hk k rfl
      exact h.close (m := n) hok (by rw [closing, hpc]) hn (.inl ⟨b, rfl⟩) h.core hspared (by rw [hpc]; simp) hl
        ⟨hb, update_of_ne hn hfile (by simp), hdup⟩
  case closeDescriptor b k rest =>
    cases hst
    obtain ⟨hb, hk, hdup⟩ := hs
    exact h.close (m := k) hok (by rw [closing, hpc]) hk (.inr ⟨b, rfl⟩) h.core
      (h.core.spared_memfd hk hdup hb) (by rw [hpc]; simp) hl trivial
  case stop =>
    cases hst
    exact ⟨fun _ => hown (by simp), h.core, hl, trivial, h.faces, h.serves_of rfl rfl⟩
  case join =>
    split at hst
    · cases hst
      exact ⟨fun _ => hown (by simp), h.core, hl, trivial, h.faces, h.serves_of rfl rfl⟩
    · cases hst
  case finish =>
    have hempty : s.sockets = [] := by
      refine List.eq_nil_iff_forall_not_mem.2 fun e he => ?_
      rcases hl.listed he with hmem | hmem
      · cases hmem
      · cases hmem
    cases hst
    rw [hempty, List.foldl_nil]
    obtain ⟨hev, hep⟩ := hown (by simp)
    have hep' : Function.update s.table s.eventFd none s.epollFd = some .epoll := update_of_ne hev hep (by simp)
    have hcore := h.core.close (h.core.spared_other hev (by simp) (by simp))
    rw [hempty] at hcore hl
    refine ⟨fun hgone => absurd rfl hgone, hcore.close (hcore.spared_other hep' (by simp) (by simp)), hl, trivial, ?_,
      h.serves_of rfl rfl⟩
    exact (h.faces.close_other hev (by simp) (by simp) (by simp)).close_other hep' (by simp) (by simp) (by simp)
  case gone => cases hst

/-! ### The other steps -/

theorem dispatcherStep {events : Option (List Nat)} {client : Option Nat} (h : Inv s)
    (hst : s.dispatcherStep events client s.dispatcher = some s') : Inv s' := by
  have hf := h.faces
  cases hpc : s.dispatcher <;> rw [hpc] at hst hf <;> simp only [Dispatch.dispatcherStep] at hst
  case loop =>
    cases hst
    refine ⟨h.own, h.core, h.ledger, h.stands, ?_, h.serves_of rfl rfl⟩
    show Faces s.table (if s.running = true then _ else _)
    split <;> trivial
  case wait =>
    split at hst
    · cases hst
      exact ⟨h.own, h.core, h.ledger, h.stands, trivial, h.serves_of rfl rfl⟩
    · split at hst
      · cases hst
        exact ⟨h.own, h.core, h.ledger, h.stands, trivial, h.serves_of rfl rfl⟩
      · cases hst
  case events l =>
    cases l with
    | nil =>
      cases hst
      exact ⟨h.own, h.core, h.ledger, h.stands, trivial, h.serves_of rfl rfl⟩
    | cons n l =>
      dsimp only at hst
      split at hst
      · cases hst
        exact ⟨h.own, h.core, h.ledger, h.stands, trivial, h.serves_of rfl rfl⟩
      · split at hst
        · cases hst
          exact ⟨h.own, h.core, h.ledger, h.stands, trivial, h.serves_of rfl rfl⟩
        · rename_i entry hfind
          cases hst
          have he := h.core.entries (List.mem_of_find?_eq_some hfind)
          have hn : entry.serverSocket = n := by simpa using List.find?_some hfind
          subst hn
          exact ⟨h.own, h.core, h.ledger, h.stands, ⟨entry.block, he.serverSocket, he.descriptor⟩, h.serves_of rfl rfl⟩
  case accept n k l =>
    obtain ⟨b, hn, hk⟩ := hf
    rw [hn] at hst
    have hserves : Serves { s with accepts := s.accepts ++ [some (.listener b)] } := by
      refine ⟨h.serves.deliveries, fun {a} ha => ?_⟩
      rcases List.mem_append.1 ha with ha | ha
      · exact h.serves.accepts ha
      · rw [List.mem_singleton.1 ha]
        exact ⟨b, rfl⟩
    split at hst
    · cases hst
      exact ⟨h.own, h.core, h.ledger, h.stands, trivial, hserves.deliveries, hserves.accepts⟩
    · rename_i c
      simp only [Option.bind_eq_bind, Option.bind_some, origin] at hst
      obtain ⟨s₁, ho, hst⟩ := Option.bind_eq_some_iff.1 hst
      cases hst
      obtain ⟨hfree, rfl⟩ := openFd_eq_some.1 ho
      have hg := grows_update (x := .client (some b)) hfree
      refine ⟨fun hgone => (h.own hgone).grows hg, h.core.grows hg, h.ledger, h.stands.grows hg,
        ⟨some b, Function.update_self .., fun b' hb' => ?_⟩, hserves.deliveries, hserves.accepts⟩
      cases hb'
      exact hg _ _ hk
  case send c k l =>
    obtain ⟨o, hc, hk⟩ := hf
    rw [hc] at hst
    cases hx : s.table k with
    | none =>
      rw [hx] at hst
      cases hst
      exact ⟨h.own, h.core, h.ledger, h.stands, ⟨o, hc⟩, h.serves_of rfl rfl⟩
    | some x =>
      rw [hx] at hst
      cases hst
      refine ⟨h.own, h.core, h.ledger, h.stands, ⟨o, hc⟩, fun {b y} hmem => ?_, h.serves.accepts⟩
      rcases List.mem_append.1 hmem with hmem | hmem
      · exact h.serves.deliveries hmem
      · cases List.mem_singleton.1 hmem
        have := hk b rfl
        rw [hx] at this
        cases this
        rfl
  case close c l =>
    obtain ⟨o, hc⟩ := hf
    cases hst
    exact ⟨fun hgone => (h.own hgone).close hc (by simp) (by simp),
      h.core.close (h.core.spared_other hc (by simp) (by simp)), h.ledger, h.stands.close_other hc (by simp) (by simp),
      trivial, h.serves_of rfl rfl⟩
  case done => cases hst

/-- A number that is open is not the one that was handed out. -/
theorem ne_of_free {y : FileObject} (hfree : s.table n = none) (hm : s.table m = some y) : m ≠ n := by
  rintro rfl
  rw [hfree] at hm
  cases hm

theorem createBlock (h : Inv s) (hfree : s.table n = none) :
    Inv { s with
      table := Function.update s.table n (some (.memfd s.handles.length))
      handles := s.handles ++ [n] } := by
  have hg := grows_update (x := .memfd s.handles.length) hfree
  have hdup {k : Nat} {y : FileObject} (hk : s.table k = some y) (hnot : k ∉ s.handles) : k ∉ s.handles ++ [n] := by
    rw [List.mem_append, List.mem_singleton, not_or]
    exact ⟨hnot, ne_of_free hfree hk⟩
  refine ⟨fun hgone => (h.own hgone).grows hg, ⟨fun {b m} hb => ?_, fun {e} he => ?_, h.core.blocks⟩, h.ledger, ?_,
    h.faces.grows hg, h.serves_of rfl rfl⟩
  · rcases Tally.get_append_cases hb with hb | ⟨rfl, rfl⟩
    · exact hg _ _ (h.core.memfds hb)
    · exact Function.update_self ..
  · have := h.core.entries he
    exact ⟨hg _ _ this.serverSocket, hg _ _ this.descriptor, hdup this.descriptor this.duplicate⟩
  · have hs := h.stands
    show Stands _ (s.handles ++ [n]) s.sockets s.caller
    have hs' := hs.grows hg
    cases hpc : s.caller <;> rw [hpc] at hs hs' <;> simp only [Stands] at hs hs' ⊢
    case insert => exact ⟨hs'.1, hs'.2.1, hs'.2.2.1, hdup hs.2.2.1 hs.2.2.2⟩
    case epollDel => exact ⟨hs'.1, hs'.2.1, fun k hk => ⟨(hs'.2.2 k hk).1, hdup (hs.2.2 k hk).1 (hs.2.2 k hk).2⟩⟩
    case closeSocket => exact ⟨hs'.1, hs'.2.1, fun k hk => ⟨(hs'.2.2 k hk).1, hdup (hs.2.2 k hk).1 (hs.2.2 k hk).2⟩⟩
    case closeDescriptor => exact ⟨hs'.1, hs'.2.1, hdup hs.2.1 hs.2.2⟩
    all_goals exact hs'

theorem step {op : DispatchOp} (h : Inv s) (hok : Undisturbed s op) (hst : step s op = some s') : Inv s' := by
  cases op with
  | createBlock n =>
    obtain ⟨s₁, ho, rfl⟩ := Option.map_eq_some_iff.1 hst
    obtain ⟨hfree, rfl⟩ := openFd_eq_some.1 ho
    exact h.createBlock hfree
  | openOther n tag =>
    obtain ⟨hfree, rfl⟩ := openFd_eq_some.1 hst
    exact h.grows (grows_update hfree)
  | closeOther n =>
    unfold Dispatch.step at hst
    dsimp only at hst
    split at hst
    · rename_i tag hx
      cases hst
      exact ⟨fun hgone => (h.own hgone).close hx (by simp) (by simp),
        h.core.close (h.core.spared_other hx (by simp) (by simp)), h.ledger,
        h.stands.close_other hx (by simp) (by simp),
        h.faces.close_other hx (by simp) (by simp) (by simp), h.serves_of rfl rfl⟩
    · cases hst
  | registerBlock b =>
    obtain ⟨⟨hidle, -⟩, hst⟩ := Option.ite_none_right_eq_some.1 hst
    have hl := h.ledger
    rw [hidle] at hl
    cases hst
    split
    · exact h
    · rename_i hnew
      refine ⟨fun _ => h.own (by rw [hidle]; simp), h.core, hl, ?_, h.faces, h.serves_of rfl rfl⟩
      rintro ⟨e, he, rfl⟩
      rcases hl.listed he with hmem | hmem
      · exact hnew hmem
      · cases hmem
  | destroy order =>
    obtain ⟨⟨hidle, hperm⟩, hst⟩ := Option.ite_none_right_eq_some.1 hst
    have hl := h.ledger
    rw [hidle] at hl
    cases hst
    exact ⟨fun _ => h.own (by rw [hidle]; simp), h.core, hl.perm (List.isPerm_iff.1 hperm).symm, trivial, h.faces,
      h.serves_of rfl rfl⟩
  | caller answer => exact h.callerStep hok hst
  | dispatcher events client => exact h.dispatcherStep hst

theorem init (h : Init s) : Inv s := by
  refine ⟨fun _ => ⟨h.eventFd, h.epollFd⟩, ⟨fun {b n} hb => ?_, fun {e} he => ?_, ?_⟩,
    ⟨fun {e} he => ?_, fun {b n} hmem => ?_, ?_, fun {b} hb => ?_⟩, ?_, ?_, fun {b x} hmem => ?_, fun {a} hmem => ?_⟩
  · rw [h.handles] at hb
    cases hb
  · rw [h.sockets] at he
    cases he
  · rw [h.sockets]
    exact .nil
  · rw [h.sockets] at he
    cases he
  · rw [h.caller, h.registeredBlocks] at hmem
    cases hmem
  · rw [h.caller, h.registeredBlocks]
    exact .nil
  · rw [h.caller] at hb
    cases hb
  · rw [h.caller]
    trivial
  · rw [h.dispatcher]
    trivial
  · rw [h.deliveries] at hmem
    cases hmem
  · rw [h.accepts] at hmem
    cases hmem

end Inv

/-- The broker serves the right descriptors as long as it closes nothing that its dispatcher has in hand. -/
theorem serves_undisturbed (h : Machine.ReachIf step Init Undisturbed s) : Serves s :=
  (h.inv (P := Inv) (fun _ => Inv.init) fun _ _ _ hs hok hst => hs.step hok hst).serves

end

/-- A dispatcher that has just started. -/
def started : Dispatch where
  table := fun n => if n = 0 then some .event else if n = 1 then some .epoll else none

theorem started_init : Init started := ⟨rfl, rfl, rfl, rfl, rfl, rfl, rfl, rfl, rfl⟩

/-- Block 0 gets memfd 3, socket 4 and duplicate 5. -/
def registration : List DispatchOp :=
  [.createBlock 3, .registerBlock 0, .caller (some 4), .caller (some 0), .caller (some 5), .caller none,
    .caller (some 0)]

/-- A client connects, and the dispatcher accepts it. -/
def acceptance : List DispatchOp :=
  [.dispatcher none none, .dispatcher (some [4]) none, .dispatcher none none, .dispatcher none (some 6)]

/-- The destructor up to the end of its loop. -/
def destruction : List DispatchOp :=
  [.destroy [(0, 4)], .caller none, .caller none, .caller none, .caller none]

/-- A client is served before the broker goes. -/
theorem serves_undisturbed_inTurn : ∃ s, Machine.run step started
    (registration ++ acceptance ++ [.dispatcher none none] ++ destruction) = some s ∧
      s.deliveries = [(some 0, .memfd 0)] ∧ Serves s := by
  have hrun : (Machine.run step started
      (registration ++ acceptance ++ [.dispatcher none none] ++ destruction)).map deliveries =
        some [(some 0, .memfd 0)] := by decide
  obtain ⟨s, hs, hd⟩ := Option.map_eq_some_iff.1 hrun
  exact ⟨s, hs, hd, serves_undisturbed (.run (.start started_init) (by decide) hs)⟩

/-- The broker goes between `accept4` and `sendmsg`, and number 5 goes to another thread. -/
theorem not_serves_reused : ∃ s, Reachable s ∧ (some 0, .foreign 7) ∈ s.deliveries ∧ ¬ Serves s := by
  have hrun : (Machine.run step started
      (registration ++ acceptance ++ destruction ++ [.openOther 5 7, .dispatcher none none])).map deliveries =
        some [(some 0, .foreign 7)] := by decide
  obtain ⟨s, hs, hd⟩ := Option.map_eq_some_iff.1 hrun
  have hmem : (some 0, .foreign 7) ∈ s.deliveries := by
    rw [hd]
    exact List.mem_singleton_self _
  refine ⟨s, Machine.Reach.run (.start started_init) hs, hmem, fun hserves => ?_⟩
  cases hserves.deliveries hmem

end Dispatch

end MemfdBuffer
