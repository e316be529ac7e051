import MemfdBuffer.Broker.Shutdown

/-!
# What the broker leaves open

Whoever holds which number is settled by the caller and the dispatcher alone, also where they get in each other's way:
the dispatcher closes only the clients that it has accepted, and the caller only what it has opened or has taken out of
the map. After the join nobody is left to hold anything.
-/

namespace MemfdBuffer

/-- The listening socket in the caller's hand. -/
def CallerPc.sockets : CallerPc → List Nat
  | .bind _ n | .dup _ n | .insert _ n _ | .closeServer _ n | .epollDel _ n _ _ | .closeSocket _ n _ _ => [n]
  | _ => []

/-- The duplicate in the caller's hand. -/
def CallerPc.descriptors : CallerPc → List Nat
  | .insert _ _ k | .closeDescriptor _ k _ => [k]
  | .epollDel _ _ k _ | .closeSocket _ _ k _ => k.toList
  | _ => []

namespace DispatcherPc

/-- The client that it has accepted. -/
def clients : DispatcherPc → List Nat
  | .send c _ _ | .close c _ => [c]
  | _ => []

/-- Without anything in hand. -/
def calm : DispatcherPc → DispatcherPc
  | .done => .done
  | _ => .loop

end DispatcherPc

namespace Dispatch

/-- A dispatcher with nothing in hand, and no history. -/
def calm (s : Dispatch) : Dispatch := { s with dispatcher := s.dispatcher.calm, accepts := [], deliveries := [] }

/-- The broker's sockets, wherever they are noted. -/
def listening (s : Dispatch) : List Nat := s.sockets.map (·.serverSocket) ++ s.caller.sockets

def duplicates (s : Dispatch) : List Nat := s.sockets.map (·.descriptor) ++ s.caller.descriptors

/-- Who a number of some kind belongs to. -/
def Claimed (s : Dispatch) (n : Nat) : FileObject → Prop
  | .listener _ => n ∈ s.listening
  | .memfd _ => n ∈ s.handles ∨ n ∈ s.duplicates
  | .client _ => n ∈ s.dispatcher.clients
  | .event => n = s.eventFd
  | .epoll => n = s.epollFd
  | .foreign _ => True

/-- What holds in every run, also where the dispatcher has a closed number in hand. -/
structure Tidy (s : Dispatch) : Prop where
  calm : Inv s.calm
  claimed {n : Nat} {x : FileObject} : s.table n = some x → s.Claimed n x
  clients {c : Nat} : c ∈ s.dispatcher.clients → ∃ o, s.table c = some (.client o)
  joined : s.caller = .finish ∨ s.caller = .gone → s.dispatcher = .done
  ended : s.caller = .gone → s.table s.eventFd ≠ some .event ∧ s.table s.epollFd ≠ some .epoll

/-- Nobody else has what the broker makes. -/
structure Start (s : Dispatch) : Prop extends Init s where
  others {n : Nat} {x : FileObject} : s.table n = some x → n = s.eventFd ∧ x = .event ∨ n = s.epollFd ∧ x = .epoll ∨
    ∃ tag, x = .foreign tag

/-- What may be closed: a socket or a duplicate, a client by the dispatcher, in the end its own two, and what others have
by the others. -/
def Closable (s : Dispatch) (op : DispatchOp) (s' : Dispatch) (n : Nat) : FileObject → Prop
  | .listener _ => True
  | .memfd _ => n ∉ s.handles
  | .client _ => n ∈ s.dispatcher.clients ∧ n ∉ s'.dispatcher.clients
  | .event | .epoll => s'.caller = .gone
  | .foreign _ => op = .closeOther n

/-- What a step does to the table. -/
structure Passed (s : Dispatch) (op : DispatchOp) (s' : Dispatch) : Prop where
  handles {n : Nat} : n ∈ s.handles → n ∈ s'.handles
  eventFd : s'.eventFd = s.eventFd
  epollFd : s'.epollFd = s.epollFd
  listening {n : Nat} : n ∈ s.listening → n ∈ s'.listening ∨ s'.table n = none
  duplicates {n : Nat} : n ∈ s.duplicates → n ∈ s'.duplicates ∨ s'.table n = none
  clients {n : Nat} : n ∈ s.dispatcher.clients → n ∈ s'.dispatcher.clients ∨ s'.table n = none
  accepted {n : Nat} : n ∈ s'.dispatcher.clients → n ∈ s.dispatcher.clients ∨ ∃ o, s'.table n = some (.client o)
  opened {n : Nat} {x : FileObject} : s'.table n = some x → s.table n = some x ∨
    s'.Claimed n x ∧ x ≠ .event ∧ x ≠ .epoll
  closed {n : Nat} {x : FileObject} : s.table n = some x → s'.table n = some x ∨ s.Closable op s' n x

/-- The dispatcher leaves everything else alone. -/
structure Aside (s s' : Dispatch) : Prop where
  handles : s'.handles = s.handles
  registeredBlocks : s'.registeredBlocks = s.registeredBlocks
  sockets : s'.sockets = s.sockets
  caller : s'.caller = s.caller
  eventFd : s'.eventFd = s.eventFd
  epollFd : s'.epollFd = s.epollFd

/-- What a step of the dispatcher does to the table. -/
inductive Attended (s s' : Dispatch) : Prop
  | turned : s'.table = s.table → s'.dispatcher.clients = s.dispatcher.clients → Attended s s'
  | accepted {c : Nat} {o : Option Nat} : s.table c = none → s'.table = Function.update s.table c (some (.client o)) →
      s.dispatcher.clients = [] → s'.dispatcher.clients = [c] → Attended s s'
  | closed {c : Nat} : s'.table = Function.update s.table c none → s.dispatcher.clients = [c] →
      s'.dispatcher.clients = [] → Attended s s'

variable {s s' : Dispatch} {op : DispatchOp} {n m k b : Nat} {x y : FileObject} {answer : Option Nat} {pc : CallerPc}

/-! ### The caller cannot tell -/

theorem openFd_calm (h : s.openFd n x = some s') : s.calm.openFd n x = some s'.calm := by
  obtain ⟨hfree, rfl⟩ := openFd_eq_some.1 h
  exact openFd_eq_some.2 ⟨hfree, rfl⟩

theorem finish_calm (l : List SocketEntry) (s : Dispatch) :
    (l.foldl (fun s entry => (s.closeFd entry.serverSocket).closeFd entry.descriptor) s).calm =
      l.foldl (fun s entry => (s.closeFd entry.serverSocket).closeFd entry.descriptor) s.calm := by
  induction l generalizing s with
  | nil => rfl
  | cons entry l ih => exact ih _

theorem callerStep_calm (h : s.callerStep answer s.caller = some s') :
    s.calm.callerStep answer s.calm.caller = some s'.calm := by
  show s.calm.callerStep answer s.caller = _
  cases hpc : s.caller <;> rw [hpc] at h <;> simp only [callerStep] at h ⊢
  case socket b =>
    split at h
    · cases h
      rfl
    · obtain ⟨s₁, ho, rfl⟩ := Option.map_eq_some_iff.1 h
      rw [openFd_calm ho]
      rfl
  case bind b n => split at h <;> cases h <;> rfl
  case dup b n =>
    cases answer with
    | none =>
      cases h
      rfl
    | some k =>
      cases hx : (s.handles[b]?).bind s.table with
      | none =>
        rw [hx] at h
        cases h
        rw [show (s.calm.handles[b]?).bind s.calm.table = none from hx]
        rfl
      | some x =>
        rw [hx] at h
        rw [show (s.calm.handles[b]?).bind s.calm.table = some x from hx]
        dsimp only at h ⊢
        split at h
        · rename_i hr
          cases h
          rw [if_pos (show s.calm.running = false from hr)]
          rfl
        · rename_i hr
          obtain ⟨s₁, ho, rfl⟩ := Option.map_eq_some_iff.1 h
          rw [if_neg (show ¬ s.calm.running = false from hr), openFd_calm ho]
          rfl
  case epollAdd b n k => split at h <;> cases h <;> rfl
  case remove rest =>
    cases rest with
    | nil => cases h; rfl
    | cons item rest => cases h; rfl
  case join =>
    split at h
    · rename_i hd
      cases h
      rw [if_pos (by rw [calm, hd]; rfl)]
      rfl
    · cases h
  case finish =>
    cases h
    show some (((({ s.calm.sockets.foldl _ s.calm with sockets := [] } : Dispatch).closeFd _).closeFd _).setCaller
      .gone) = _
    rw [show s.calm.sockets = s.sockets from rfl, ← finish_calm]
    rfl
  all_goals
    cases h
    try rfl

theorem step_calm (hop : ¬ op.OfDispatcher) (h : step s op = some s') : step s.calm op = some s'.calm := by
  cases op with
  | createBlock n =>
    obtain ⟨s₁, ho, rfl⟩ := Option.map_eq_some_iff.1 h
    exact Option.map_eq_some_iff.2 ⟨_, openFd_calm ho, rfl⟩
  | openOther n tag => exact openFd_calm h
  | closeOther n =>
    simp only [step] at h ⊢
    split at h
    · rename_i tag hx
      cases h
      rw [show s.calm.table n = _ from hx]
      rfl
    · cases h
  | registerBlock b =>
    obtain ⟨hb, h⟩ := Option.ite_none_right_eq_some.1 h
    refine Option.ite_none_right_eq_some.2 ⟨hb, ?_⟩
    cases h
    show some (if b ∈ s.registeredBlocks.map Prod.fst then s.calm else _) = some (Dispatch.calm (if _ then _ else _))
    split <;> rfl
  | destroy order =>
    obtain ⟨hb, h⟩ := Option.ite_none_right_eq_some.1 h
    refine Option.ite_none_right_eq_some.2 ⟨hb, ?_⟩
    cases h
    rfl
  | caller answer => exact callerStep_calm h
  | dispatcher events client => exact absurd ⟨events, client, rfl⟩ hop

theorem calm_inHand (s : Dispatch) : s.calm.inHand = [] := by
  cases hpc : s.dispatcher <;> simp [inHand, calm, DispatcherPc.calm, hpc]

theorem Inv.step_calm (h : Inv s.calm) (hop : ¬ op.OfDispatcher) (hst : Dispatch.step s op = some s') :
    Inv s'.calm := by
  refine h.step ?_ (Dispatch.step_calm hop hst)
  cases op <;> try trivial
  intro n _
  rw [calm_inHand]
  exact List.not_mem_nil

/-! ### Who holds what -/

theorem mem_listening : n ∈ s.listening ↔ (∃ entry ∈ s.sockets, entry.serverSocket = n) ∨ n ∈ s.caller.sockets := by
  rw [listening, List.mem_append, List.mem_map]

theorem mem_duplicates : n ∈ s.duplicates ↔ (∃ entry ∈ s.sockets, entry.descriptor = n) ∨ n ∈ s.caller.descriptors := by
  rw [duplicates, List.mem_append, List.mem_map]

/-- A step that leaves the table alone and drops nothing. -/
theorem Passed.turn (ht : s'.table = s.table)
    (hf : (∀ n ∈ s.handles, n ∈ s'.handles) ∧ s'.eventFd = s.eventFd ∧ s'.epollFd = s.epollFd ∧
      s'.dispatcher.clients = s.dispatcher.clients)
    (hl : ∀ n ∈ s.listening, n ∈ s'.listening) (hd : ∀ n ∈ s.duplicates, n ∈ s'.duplicates) : Passed s op s' :=
  ⟨fun hn => hf.1 _ hn, hf.2.1, hf.2.2.1, fun hn => .inl (hl _ hn), fun hn => .inl (hd _ hn),
    fun hn => .inl (by rw [hf.2.2.2]; exact hn), fun hn => .inl (by rw [← hf.2.2.2]; exact hn),
    fun hx => .inl (by rw [← ht]; exact hx), fun hx => .inl (by rw [ht]; exact hx)⟩

/-- The caller opens a number and holds it. -/
theorem Passed.open_ (hfree : s.table n = none) (ht : s'.table = Function.update s.table n (some x))
    (hf : (∀ n ∈ s.handles, n ∈ s'.handles) ∧ s'.eventFd = s.eventFd ∧ s'.epollFd = s.epollFd ∧
      s'.dispatcher.clients = s.dispatcher.clients)
    (hl : ∀ m ∈ s.listening, m ∈ s'.listening) (hd : ∀ m ∈ s.duplicates, m ∈ s'.duplicates)
    (hx : s'.Claimed n x ∧ x ≠ .event ∧ x ≠ .epoll) :
    Passed s op s' := by
  refine ⟨fun hn => hf.1 _ hn, hf.2.1, hf.2.2.1, fun hn => .inl (hl _ hn), fun hn => .inl (hd _ hn),
    fun hn => .inl (by rw [hf.2.2.2]; exact hn), fun hn => .inl (by rw [← hf.2.2.2]; exact hn),
    fun {m y} hy => ?_, fun {m y} hy => .inl ?_⟩
  · rw [ht, Function.update_apply] at hy
    split at hy
    · rename_i hm
      cases hy
      rw [hm]
      exact .inr hx
    · exact .inl hy
  · rw [ht]
    exact grows_update hfree _ _ hy

/-- The caller closes a number; nothing else leaves its hands. -/
theorem Passed.close (hx : s.table n = some x) (hc : s.Closable op s' n x)
    (ht : s'.table = Function.update s.table n none)
    (hf : (∀ n ∈ s.handles, n ∈ s'.handles) ∧ s'.eventFd = s.eventFd ∧ s'.epollFd = s.epollFd ∧
      s'.dispatcher.clients = s.dispatcher.clients)
    (hl : ∀ m ∈ s.listening, m ≠ n → m ∈ s'.listening) (hd : ∀ m ∈ s.duplicates, m ≠ n → m ∈ s'.duplicates) :
    Passed s op s' := by
  have hself : s'.table n = none := by rw [ht, Function.update_self]
  have hother {m : Nat} (hm : m ≠ n) : s'.table m = s.table m := by rw [ht, Function.update_of_ne hm]
  refine ⟨fun hn => hf.1 _ hn, hf.2.1, hf.2.2.1, fun {m} hn => ?_, fun {m} hn => ?_,
    fun hn => .inl (by rw [hf.2.2.2]; exact hn), fun hn => .inl (by rw [← hf.2.2.2]; exact hn),
    fun {m y} hy => .inl ?_, fun {m y} hy => ?_⟩
  · by_cases hm : m = n
    · exact .inr (by rw [hm]; exact hself)
    · exact .inl (hl m hn hm)
  · by_cases hm : m = n
    · exact .inr (by rw [hm]; exact hself)
    · exact .inl (hd m hn hm)
  · by_cases hm : m = n
    · rw [hm, hself] at hy
      cases hy
    · rw [← hother hm]
      exact hy
  · by_cases hm : m = n
    · subst hm
      rw [hx] at hy
      cases hy
      exact .inr hc
    · exact .inl (by rw [hother hm]; exact hy)

theorem callerStep_passed (h : Inv s.calm) (hst : s.callerStep answer s.caller = some s') : Passed s op s' := by
  have hs : Stands s.table s.handles s.sockets s.caller := h.stands
  have hcore : Core s.table s.handles s.sockets := h.core
  have hledger : Ledger s.sockets (s.caller.pending s.registeredBlocks) s.caller.entering := h.ledger
  have hown : s.caller ≠ .gone → Own s.table s.eventFd s.epollFd := h.own
  have hl {n : Nat} := mem_listening (s := s) (n := n)
  have hd {n : Nat} := mem_duplicates (s := s) (n := n)
  cases hpc : s.caller <;> rw [hpc] at hst hs hl hd hledger hown <;> simp only [callerStep] at hst
  case idle => cases hst
  case socket b =>
    split at hst
    · cases hst
      exact .turn rfl ⟨fun _ => id, rfl, rfl, rfl⟩ (fun _ hn => mem_listening.2 (hl.1 hn)) fun _ hn =>
        mem_duplicates.2 (hd.1 hn)
    · rename_i n
      obtain ⟨s₁, ho, rfl⟩ := Option.map_eq_some_iff.1 hst
      obtain ⟨hfree, rfl⟩ := openFd_eq_some.1 ho
      refine .open_ hfree rfl ⟨fun _ => id, rfl, rfl, rfl⟩ (fun m hm => mem_listening.2 ((hl.1 hm).imp_right ?_))
        (fun _ hm => mem_duplicates.2 (hd.1 hm)) ⟨mem_listening.2 (.inr (List.mem_singleton_self n)), by simp, by simp⟩
      intro hm
      cases hm
  case bind b n =>
    split at hst <;> cases hst <;>
      exact .turn rfl ⟨fun _ => id, rfl, rfl, rfl⟩ (fun _ hn => mem_listening.2 (hl.1 hn)) fun _ hn =>
        mem_duplicates.2 (hd.1 hn)
  case dup b n =>
    split at hst
    · split at hst
      · cases hst
        exact .turn rfl ⟨fun _ => id, rfl, rfl, rfl⟩ (fun _ hn => mem_listening.2 (hl.1 hn)) fun _ hn =>
          mem_duplicates.2 (hd.1 hn)
      · rename_i k x hk hx hrun
        obtain ⟨handle, hhandle, hx⟩ := Option.bind_eq_some_iff.1 hx
        rw [hcore.memfds hhandle] at hx
        cases hx
        obtain ⟨s₁, ho, rfl⟩ := Option.map_eq_some_iff.1 hst
        obtain ⟨hfree, rfl⟩ := openFd_eq_some.1 ho
        refine .open_ hfree rfl ⟨fun _ => id, rfl, rfl, rfl⟩ (fun _ hm => mem_listening.2 (hl.1 hm))
          (fun m hm => mem_duplicates.2 ((hd.1 hm).imp_right ?_))
          ⟨.inr (mem_duplicates.2 (.inr (List.mem_singleton_self _))), by simp, by simp⟩
        intro hm
        cases hm
    · cases hst
      exact .turn rfl ⟨fun _ => id, rfl, rfl, rfl⟩ (fun _ hn => mem_listening.2 (hl.1 hn)) fun _ hn =>
        mem_duplicates.2 (hd.1 hn)
  case insert b n k =>
    cases hst
    obtain ⟨hb, hn, -, -⟩ := hs
    have hsame : (s.eraseSocket n).sockets = s.sockets := hcore.erase_fresh hn hb
    rw [hsame]
    refine .turn rfl ⟨fun _ => id, rfl, rfl, rfl⟩ (fun m hm => mem_listening.2 (.inl ?_)) fun m hm =>
      mem_duplicates.2 (.inl ?_)
    · rcases hl.1 hm with ⟨e, he, heq⟩ | hm
      · exact ⟨e, List.mem_cons_of_mem _ he, heq⟩
      · exact ⟨_, List.mem_cons_self .., (List.mem_singleton.1 hm).symm⟩
    · rcases hd.1 hm with ⟨e, he, heq⟩ | hm
      · exact ⟨e, List.mem_cons_of_mem _ he, heq⟩
      · exact ⟨_, List.mem_cons_self .., (List.mem_singleton.1 hm).symm⟩
  case epollAdd b n k =>
    split at hst <;> cases hst <;>
      exact .turn rfl ⟨fun _ => id, rfl, rfl, rfl⟩ (fun _ hn => mem_listening.2 (hl.1 hn)) fun _ hn =>
        mem_duplicates.2 (hd.1 hn)
  case undo b n k =>
    cases hst
    have he := hcore.entries hs
    refine .close he.descriptor he.duplicate rfl ⟨fun _ => id, rfl, rfl, rfl⟩ (fun m hm hmk => mem_listening.2 ?_)
      fun m hm hmk => mem_duplicates.2 (.inl ?_)
    · rcases hl.1 hm with ⟨e, he, rfl⟩ | hm
      · by_cases hen : e.serverSocket = n
        · exact .inr (List.mem_singleton.2 hen)
        · exact .inl ⟨e, List.mem_filter.2 ⟨he, decide_eq_true hen⟩, rfl⟩
      · cases hm
    · rcases hd.1 hm with ⟨e, he, rfl⟩ | hm
      · refine ⟨e, (hcore.mem_erase hs).2 ⟨he, fun hblock => hmk ?_⟩, rfl⟩
        rw [List.inj_on_of_nodup_map hcore.blocks he hs hblock]
      · cases hm
  case closeServer b n =>
    cases hst
    refine .close hs.2 trivial rfl ⟨fun _ => id, rfl, rfl, rfl⟩
      (fun m hm hmn => mem_listening.2 ((hl.1 hm).imp_right ?_))
      fun _ hm _ => mem_duplicates.2 (hd.1 hm)
    intro hm
    exact absurd (List.mem_singleton.1 hm) hmn
  case remove rest =>
    cases rest with
    | nil =>
      cases hst
      exact .turn rfl ⟨fun _ => id, rfl, rfl, rfl⟩ (fun _ hn => mem_listening.2 (hl.1 hn)) fun _ hn =>
        mem_duplicates.2 (hd.1 hn)
    | cons item rest =>
      obtain ⟨b, n⟩ := item
      cases hst
      refine .turn rfl ⟨fun _ => id, rfl, rfl, rfl⟩ (fun m hm => mem_listening.2 ?_) fun m hm => mem_duplicates.2 ?_
      · rcases hl.1 hm with ⟨e, he, rfl⟩ | hm
        · by_cases hen : e.serverSocket = n
          · exact .inr (List.mem_singleton.2 hen)
          · exact .inl ⟨e, List.mem_filter.2 ⟨he, decide_eq_true hen⟩, rfl⟩
        · cases hm
      · rcases hd.1 hm with ⟨e, he, rfl⟩ | hm
        · by_cases hen : e.serverSocket = n
          · -- the map has one entry for the socket, so it is the one that was looked up
            refine .inr ?_
            subst hen
            cases hfind : s.find e.serverSocket with
            | none =>
              have := List.find?_eq_none.1 hfind e he
              simp at this
            | some e' =>
              have hmem := List.mem_of_find?_eq_some hfind
              have hserver : e'.serverSocket = e.serverSocket := by simpa using List.find?_some hfind
              have hblock := (hcore.serverSocket_inj he hmem).1 hserver
              rw [List.inj_on_of_nodup_map hcore.blocks hmem he hblock]
              exact List.mem_singleton_self _
          · exact .inl ⟨e, List.mem_filter.2 ⟨he, decide_eq_true hen⟩, rfl⟩
        · cases hm
  case epollDel b n k rest =>
    cases hst
    exact .turn rfl ⟨fun _ => id, rfl, rfl, rfl⟩ (fun _ hn => mem_listening.2 (hl.1 hn)) fun _ hn =>
      mem_duplicates.2 (hd.1 hn)
  case closeSocket b n k rest =>
    cases hst
    refine .close hs.2.1 trivial rfl ⟨fun _ => id, rfl, rfl, rfl⟩
      (fun m hm hmn => mem_listening.2 ((hl.1 hm).imp_right ?_))
      fun m hm _ => mem_duplicates.2 ((hd.1 hm).imp_right ?_)
    · intro hm
      exact absurd (List.mem_singleton.1 hm) hmn
    · cases k with
      | none =>
        intro hm
        cases hm
      | some k => exact id
  case closeDescriptor b k rest =>
    cases hst
    refine .close hs.2.1 hs.2.2 rfl ⟨fun _ => id, rfl, rfl, rfl⟩ (fun _ hm _ => mem_listening.2 (hl.1 hm))
      fun m hm hmk => mem_duplicates.2 ((hd.1 hm).imp_right ?_)
    intro hm
    exact absurd (List.mem_singleton.1 hm) hmk
  case stop =>
    cases hst
    exact .turn rfl ⟨fun _ => id, rfl, rfl, rfl⟩ (fun _ hn => mem_listening.2 (hl.1 hn)) fun _ hn =>
      mem_duplicates.2 (hd.1 hn)
  case join =>
    split at hst
    · cases hst
      exact .turn rfl ⟨fun _ => id, rfl, rfl, rfl⟩ (fun _ hn => mem_listening.2 (hl.1 hn)) fun _ hn =>
        mem_duplicates.2 (hd.1 hn)
    · cases hst
  case finish =>
    have hempty : s.sockets = [] := by
      refine List.eq_nil_iff_forall_not_mem.2 fun e he => ?_
      rcases hledger.listed he with hmem | hmem <;> cases hmem
    cases hst
    rw [hempty, List.foldl_nil]
    rw [hempty] at hl hd
    obtain ⟨hev, hep⟩ := hown (by simp)
    have hself (m : Nat) : Function.update (Function.update s.table s.eventFd none) s.epollFd none m = s.table m ∨
        (m = s.eventFd ∨ m = s.epollFd) ∧
          Function.update (Function.update s.table s.eventFd none) s.epollFd none m = none := by
      rw [Function.update_apply, Function.update_apply]
      split
      · exact .inr ⟨.inr ‹_›, rfl⟩
      · split
        · exact .inr ⟨.inl ‹_›, rfl⟩
        · exact .inl rfl
    refine ⟨id, rfl, rfl, fun hn => .inl (mem_listening.2 (hl.1 hn)), fun hn => .inl (mem_duplicates.2 (hd.1 hn)),
      fun hn => .inl hn, fun hn => .inl ?_, fun {m y} hy => .inl ?_, fun {m y} hy => ?_⟩
    · exact hn
    · rcases hself m with heq | ⟨-, heq⟩
      · rw [← heq]
        exact hy
      · cases heq.symm.trans hy
    · rcases hself m with heq | ⟨rfl | rfl, -⟩
      · exact .inl (heq.trans hy)
      · cases hev.symm.trans hy
        exact .inr rfl
      · cases hep.symm.trans hy
        exact .inr rfl
  case gone => cases hst

theorem attended_of_step {events : Option (List Nat)} {client : Option Nat}
    (hst : s.dispatcherStep events client s.dispatcher = some s') : Aside s s' ∧ Attended s s' := by
  cases hpc : s.dispatcher <;> rw [hpc] at hst <;> simp only [dispatcherStep] at hst
  case loop =>
    cases hst
    refine ⟨⟨rfl, rfl, rfl, rfl, rfl, rfl⟩, .turned rfl ?_⟩
    show (if s.running = true then DispatcherPc.wait else .done).clients = _
    rw [hpc]
    split <;> rfl
  case wait =>
    split at hst
    · cases hst
      exact ⟨⟨rfl, rfl, rfl, rfl, rfl, rfl⟩, .turned rfl (by rw [hpc]; rfl)⟩
    · split at hst
      · cases hst
        exact ⟨⟨rfl, rfl, rfl, rfl, rfl, rfl⟩, .turned rfl (by rw [hpc]; rfl)⟩
      · cases hst
  case events l =>
    cases l with
    | nil =>
      cases hst
      exact ⟨⟨rfl, rfl, rfl, rfl, rfl, rfl⟩, .turned rfl (by rw [hpc]; rfl)⟩
    | cons n l =>
      dsimp only at hst
      split at hst
      · cases hst
        exact ⟨⟨rfl, rfl, rfl, rfl, rfl, rfl⟩, .turned rfl (by rw [hpc]; rfl)⟩
      · split at hst <;> cases hst <;> exact ⟨⟨rfl, rfl, rfl, rfl, rfl, rfl⟩, .turned rfl (by rw [hpc]; rfl)⟩
  case accept n k l =>
    split at hst
    · cases hst
      exact ⟨⟨rfl, rfl, rfl, rfl, rfl, rfl⟩, .turned rfl (by rw [hpc]; rfl)⟩
    · rename_i c
      obtain ⟨x, -, hst⟩ := Option.bind_eq_some_iff.1 hst
      obtain ⟨o, -, hst⟩ := Option.bind_eq_some_iff.1 hst
      obtain ⟨s₁, ho, hst⟩ := Option.bind_eq_some_iff.1 hst
      cases hst
      obtain ⟨hfree, rfl⟩ := openFd_eq_some.1 ho
      exact ⟨⟨rfl, rfl, rfl, rfl, rfl, rfl⟩, .accepted hfree rfl (by rw [hpc]; rfl) rfl⟩
  case send c k l =>
    split at hst <;> cases hst <;> exact ⟨⟨rfl, rfl, rfl, rfl, rfl, rfl⟩, .turned rfl (by rw [hpc]; rfl)⟩
  case close c l =>
    cases hst
    exact ⟨⟨rfl, rfl, rfl, rfl, rfl, rfl⟩, .closed rfl (by rw [hpc]; rfl) rfl⟩
  case done => cases hst

theorem Attended.passed (h : Tidy s) (hs : Aside s s') (ha : Attended s s') : Passed s op s' := by
  have hl {n : Nat} (hn : n ∈ s.listening) : n ∈ s'.listening := by
    rw [listening, hs.sockets, hs.caller]
    exact hn
  have hd {n : Nat} (hn : n ∈ s.duplicates) : n ∈ s'.duplicates := by
    rw [duplicates, hs.sockets, hs.caller]
    exact hn
  have hh (n : Nat) (hn : n ∈ s.handles) : n ∈ s'.handles := by
    rw [hs.handles]
    exact hn
  cases ha with
  | turned ht hc => exact .turn ht ⟨hh, hs.eventFd, hs.epollFd, hc⟩ (fun _ => hl) fun _ => hd
  | accepted hfree ht hc hc' =>
    rename_i c o
    refine ⟨hh _, hs.eventFd, hs.epollFd, fun hn => .inl (hl hn), fun hn => .inl (hd hn), fun hn => ?_,
      fun {m} hm => .inr ⟨o, ?_⟩, fun {m y} hy => ?_, fun hy => .inl ?_⟩
    · rw [hc] at hn
      cases hn
    · rw [hc'] at hm
      rw [ht, List.mem_singleton.1 hm, Function.update_self]
    · rw [ht, Function.update_apply] at hy
      split at hy
      · rename_i hm
        cases hy
        refine .inr ⟨?_, by simp, by simp⟩
        rw [hm, Claimed, hc']
        exact List.mem_singleton_self _
      · exact .inl hy
    · rw [ht]
      exact grows_update hfree _ _ hy
  | closed ht hc hc' =>
    rename_i c
    obtain ⟨o, hco⟩ := h.clients (c := c) (by rw [hc]; exact List.mem_singleton_self _)
    refine ⟨hh _, hs.eventFd, hs.epollFd, fun hn => .inl (hl hn), fun hn => .inl (hd hn), fun hn => .inr ?_,
      fun hn => ?_, fun {m y} hy => .inl ?_, fun {m y} hy => ?_⟩
    · rw [hc] at hn
      rw [ht, List.mem_singleton.1 hn, Function.update_self]
    · rw [hc'] at hn
      cases hn
    · rw [ht, Function.update_apply] at hy
      split at hy
      · cases hy
      · exact hy
    · by_cases hm : m = c
      · subst hm
        cases hco.symm.trans hy
        rw [Closable, hc, hc']
        exact .inr ⟨List.mem_singleton_self _, List.not_mem_nil⟩
      · rw [ht, Function.update_of_ne hm]
        exact .inl hy

/-- The caller's side of the invariant, over the dispatcher's table. -/
theorem Aside.calm (hs : Aside s s') (h : Inv s.calm) (hown : s.caller ≠ .gone → Own s'.table s.eventFd s.epollFd)
    (hcore : Core s'.table s.handles s.sockets) (hstands : Stands s'.table s.handles s.sockets s.caller) :
      Inv s'.calm := by
  have hfaces : Faces s'.table s'.dispatcher.calm := by
    cases s'.dispatcher <;> trivial
  refine ⟨?_, ?_, ?_, ?_, hfaces, fun hmem => (by cases hmem), fun hmem => (by cases hmem)⟩
  · show s'.caller ≠ .gone → Own s'.table s'.eventFd s'.epollFd
    rw [hs.caller, hs.eventFd, hs.epollFd]
    exact hown
  · show Core s'.table s'.handles s'.sockets
    rw [hs.handles, hs.sockets]
    exact hcore
  · show Ledger s'.sockets (s'.caller.pending s'.registeredBlocks) s'.caller.entering
    rw [hs.sockets, hs.caller, hs.registeredBlocks]
    exact h.ledger
  · show Stands s'.table s'.handles s'.sockets s'.caller
    rw [hs.handles, hs.sockets, hs.caller]
    exact hstands

/-- The dispatcher opens and closes clients only, so that the caller's side does not change. -/
theorem Attended.calm (h : Tidy s) (hs : Aside s s') (ha : Attended s s') : Inv s'.calm := by
  have hown : s.caller ≠ .gone → Own s.table s.eventFd s.epollFd := h.calm.own
  have hcore : Core s.table s.handles s.sockets := h.calm.core
  have hstands : Stands s.table s.handles s.sockets s.caller := h.calm.stands
  cases ha with
  | turned ht hc =>
    refine hs.calm h.calm ?_ ?_ ?_ <;> rw [ht]
    · exact hown
    · exact hcore
    · exact hstands
  | accepted hfree ht hc hc' =>
    have hg := grows_update (x := .client ‹_›) hfree
    rw [← ht] at hg
    exact hs.calm h.calm (fun hgone => (hown hgone).grows hg) (hcore.grows hg) (hstands.grows hg)
  | closed ht hc hc' =>
    rename_i c
    obtain ⟨o, hco⟩ := h.clients (c := c) (by rw [hc]; exact List.mem_singleton_self _)
    refine hs.calm h.calm (fun hgone => ?_) ?_ ?_ <;> rw [ht]
    · exact (hown hgone).close hco (by simp) (by simp)
    · exact hcore.close (hcore.spared_other hco (by simp) (by simp))
    · exact hstands.close_other hco (by simp) (by simp)

theorem Passed.of_step (h : Tidy s) (hst : step s op = some s') : Passed s op s' := by
  cases op with
  | createBlock n =>
    obtain ⟨s₁, ho, rfl⟩ := Option.map_eq_some_iff.1 hst
    obtain ⟨hfree, rfl⟩ := openFd_eq_some.1 ho
    exact .open_ hfree rfl ⟨fun _ => List.mem_append_left _, rfl, rfl, rfl⟩ (fun _ => id) (fun _ => id)
      ⟨.inl (List.mem_append_right _ (List.mem_singleton_self n)), by simp, by simp⟩
  | openOther n tag =>
    obtain ⟨hfree, rfl⟩ := openFd_eq_some.1 hst
    exact .open_ hfree rfl ⟨fun _ => id, rfl, rfl, rfl⟩ (fun _ => id) (fun _ => id) ⟨trivial, by simp, by simp⟩
  | closeOther n =>
    simp only [step] at hst
    split at hst
    · rename_i tag hx
      cases hst
      exact .close hx rfl rfl ⟨fun _ => id, rfl, rfl, rfl⟩ (fun _ hm _ => hm) fun _ hm _ => hm
    · cases hst
  | registerBlock b =>
    obtain ⟨⟨hidle, -⟩, hst⟩ := Option.ite_none_right_eq_some.1 hst
    cases hst
    split
    · exact .turn rfl ⟨fun _ => id, rfl, rfl, rfl⟩ (fun _ => id) fun _ => id
    · refine .turn rfl ⟨fun _ => id, rfl, rfl, rfl⟩ (fun n hn => ?_) fun n hn => ?_
      · rw [Dispatch.listening, hidle] at hn
        exact hn
      · rw [Dispatch.duplicates, hidle] at hn
        exact hn
  | destroy order =>
    obtain ⟨⟨hidle, -⟩, hst⟩ := Option.ite_none_right_eq_some.1 hst
    cases hst
    refine .turn rfl ⟨fun _ => id, rfl, rfl, rfl⟩ (fun n hn => ?_) fun n hn => ?_
    · rw [Dispatch.listening, hidle] at hn
      exact hn
    · rw [Dispatch.duplicates, hidle] at hn
      exact hn
  | caller answer => exact callerStep_passed h.calm hst
  | dispatcher events client =>
    obtain ⟨hs, ha⟩ := attended_of_step hst
    exact ha.passed h hs

/-! ### Every run -/

/-- The destructor gets behind the join, and to its end, on one way only. -/
theorem callerStep_ends (h : s.callerStep answer s.caller = some s') :
    (s'.caller = .finish → s.caller = .join) ∧ (s'.caller = .gone → s.caller = .finish) := by
  cases hpc : s.caller <;> rw [hpc] at h <;> simp only [callerStep] at h
  case socket b =>
    split at h
    · cases h
      constructor <;> intro hends <;> cases hends
    · obtain ⟨s₁, ho, rfl⟩ := Option.map_eq_some_iff.1 h
      constructor <;> intro hends <;> cases hends
  case bind b n => split at h <;> cases h <;> constructor <;> intro hends <;> cases hends
  case dup b n =>
    split at h
    · split at h
      · cases h
        constructor <;> intro hends <;> cases hends
      · obtain ⟨s₁, ho, rfl⟩ := Option.map_eq_some_iff.1 h
        constructor <;> intro hends <;> cases hends
    · cases h
      constructor <;> intro hends <;> cases hends
  case epollAdd b n k => split at h <;> cases h <;> constructor <;> intro hends <;> cases hends
  case remove rest => cases rest <;> cases h <;> constructor <;> intro hends <;> cases hends
  case closeSocket b n k rest => cases k <;> cases h <;> constructor <;> intro hends <;> cases hends
  case join =>
    split at h
    · cases h
      exact ⟨fun _ => rfl, fun hg => by cases hg⟩
    · cases h
  case finish =>
    cases h
    exact ⟨fun hf => (by cases hf), fun _ => rfl⟩
  all_goals
    cases h
    try (constructor <;> intro hends <;> cases hends)

/-- The destructor's last step closes the dispatcher's own two. -/
theorem callerStep_finish (hpc : s.caller = .finish) (h : s.callerStep answer s.caller = some s') :
    s'.table s'.eventFd ≠ some .event ∧ s'.table s'.epollFd ≠ some .epoll := by
  rw [hpc] at h
  simp only [callerStep] at h
  generalize s.sockets.foldl _ s = t at h
  cases h
  constructor
  · show Function.update (Function.update t.table t.eventFd none) t.epollFd none t.eventFd ≠ _
    rw [Function.update_apply, Function.update_self, ite_self]
    exact Option.some_ne_none _ |>.symm
  · show Function.update (Function.update t.table t.eventFd none) t.epollFd none t.epollFd ≠ _
    rw [Function.update_self]
    exact Option.some_ne_none _ |>.symm

theorem Tidy.init (h : Start s) : Tidy s := by
  have hinit : Init s.calm :=
    ⟨h.handles, h.registeredBlocks, h.sockets, h.caller, by rw [Dispatch.calm, h.dispatcher]; rfl, rfl, rfl, h.eventFd,
      h.epollFd⟩
  refine ⟨Inv.init hinit, fun {n x} hx => ?_, fun {c} hc => ?_, fun hj => ?_, fun hg => ?_⟩
  · rcases h.others hx with ⟨rfl, rfl⟩ | ⟨rfl, rfl⟩ | ⟨tag, rfl⟩
    · rfl
    · rfl
    · trivial
  · rw [h.dispatcher] at hc
    cases hc
  · rw [h.caller] at hj
    rcases hj with hj | hj <;> cases hj
  · rw [h.caller] at hg
    cases hg

namespace Passed

theorem claimed (hp : Passed s op s') (hc : ∀ {n x}, s.table n = some x → s.Claimed n x) (hx : s'.table n = some x) :
    s'.Claimed n x := by
  have hopen : s'.table n ≠ none := by
    rw [hx]
    exact Option.some_ne_none x
  rcases hp.opened hx with hx | ⟨hx, -, -⟩
  · have hold := hc hx
    cases x with
    | listener b => exact (hp.listening hold).resolve_right hopen
    | memfd b => exact hold.imp hp.handles fun hd => (hp.duplicates hd).resolve_right hopen
    | client o => exact (hp.clients hold).resolve_right hopen
    | event => exact hold.trans hp.eventFd.symm
    | epoll => exact hold.trans hp.epollFd.symm
    | foreign tag => trivial
  · exact hx

theorem client (hp : Passed s op s') (hc : ∀ {c}, c ∈ s.dispatcher.clients → ∃ o, s.table c = some (.client o))
    (hn : n ∈ s'.dispatcher.clients) : ∃ o, s'.table n = some (.client o) := by
  rcases hp.accepted hn with hold | hnew
  · obtain ⟨o, ho⟩ := hc hold
    rcases hp.closed ho with ho | ⟨-, hnot⟩
    · exact ⟨o, ho⟩
    · exact absurd hn hnot
  · exact hnew

/-- Once the dispatcher's own two are closed they stay so. -/
theorem ended (hp : Passed s op s') (h : s.table s.eventFd ≠ some .event ∧ s.table s.epollFd ≠ some .epoll) :
    s'.table s'.eventFd ≠ some .event ∧ s'.table s'.epollFd ≠ some .epoll := by
  rw [hp.eventFd, hp.epollFd]
  constructor
  · intro hx
    rcases hp.opened hx with hx | ⟨-, hne, -⟩
    · exact h.1 hx
    · exact hne rfl
  · intro hx
    rcases hp.opened hx with hx | ⟨-, -, hne⟩
    · exact h.2 hx
    · exact hne rfl

end Passed

namespace Tidy

theorem calm_step (h : Tidy s) (hst : step s op = some s') : Inv s'.calm := by
  by_cases hop : op.OfDispatcher
  · obtain ⟨events, client, rfl⟩ := hop
    obtain ⟨hs, ha⟩ := attended_of_step hst
    exact ha.calm h hs
  · exact h.calm.step_calm hop hst

theorem ends_step (h : Tidy s) (hst : step s op = some s') :
    (s'.caller = .finish ∨ s'.caller = .gone → s'.dispatcher = .done) ∧
      (s'.caller = .gone → s'.table s'.eventFd ≠ some .event ∧ s'.table s'.epollFd ≠ some .epoll) := by
  have hp := Passed.of_step h hst
  have hstill (hc : s'.caller = s.caller) (hd : s'.dispatcher = s.dispatcher) :
      (s'.caller = .finish ∨ s'.caller = .gone → s'.dispatcher = .done) ∧
        (s'.caller = .gone → s'.table s'.eventFd ≠ some .event ∧ s'.table s'.epollFd ≠ some .epoll) := by
    rw [hc, hd]
    exact ⟨h.joined, fun hg => hp.ended (h.ended hg)⟩
  cases op with
  | createBlock n =>
    obtain ⟨s₁, ho, rfl⟩ := Option.map_eq_some_iff.1 hst
    obtain ⟨hc, hd, -⟩ := openFd_pcs ho
    exact hstill hc hd
  | openOther n tag =>
    obtain ⟨hc, hd, -⟩ := openFd_pcs hst
    exact hstill hc hd
  | closeOther n =>
    simp only [step] at hst
    split at hst
    · cases hst
      exact hstill rfl rfl
    · cases hst
  | registerBlock b =>
    obtain ⟨-, hst⟩ := Option.ite_none_right_eq_some.1 hst
    cases hst
    by_cases hb : b ∈ s.registeredBlocks.map Prod.fst
    · rw [if_pos hb] at hstill ⊢
      exact hstill rfl rfl
    · rw [if_neg hb]
      exact ⟨fun hj => (by rcases hj with hj | hj <;> cases hj), fun hg => (by cases hg)⟩
  | destroy order =>
    obtain ⟨-, hst⟩ := Option.ite_none_right_eq_some.1 hst
    cases hst
    exact ⟨fun hj => (by rcases hj with hj | hj <;> cases hj), fun hg => (by cases hg)⟩
  | caller answer =>
    obtain ⟨hf, hg⟩ := callerStep_ends hst
    obtain ⟨hd, -, hj, -⟩ := callerStep_left hst
    refine ⟨fun hends => ?_, fun hgone => callerStep_finish (hg hgone) hst⟩
    rw [hd]
    rcases hends with hends | hends
    · exact (hj (hf hends)).1
    · exact h.joined (.inl (hg hends))
  | dispatcher events client =>
    have hgoes : s.dispatcher ≠ .done := by
      intro hdone
      simp only [step, hdone, dispatcherStep] at hst
      cases hst
    rw [(attended_of_step hst).1.caller]
    exact ⟨fun hj => absurd (h.joined hj) hgoes, fun hg => absurd (h.joined (.inr hg)) hgoes⟩

theorem step (h : Tidy s) (hst : Dispatch.step s op = some s') : Tidy s' := by
  have hp := Passed.of_step h hst
  obtain ⟨hj, he⟩ := h.ends_step hst
  exact ⟨h.calm_step hst, hp.claimed h.claimed, hp.client h.clients, hj, he⟩

theorem of_reach (h : Machine.Reach Dispatch.step Start s) : Tidy s :=
  h.inv (P := Tidy) (fun _ => init) fun _ _ _ hs _ hst => hs.step hst

/-- Every entry of the map is that of a registered block while the caller is at rest. -/
theorem registered {entry : SocketEntry} (h : Tidy s) (hidle : s.caller = .idle) (he : entry ∈ s.sockets) :
    (entry.block, entry.serverSocket) ∈ s.registeredBlocks := by
  have hcore : Core s.table s.handles s.sockets := h.calm.core
  have hledger : Ledger s.sockets (s.caller.pending s.registeredBlocks) s.caller.entering := h.calm.ledger
  rw [hidle] at hledger
  rcases hledger.listed he with hmem | hmem
  · obtain ⟨⟨b, n⟩, hmem, rfl⟩ := List.mem_map.1 hmem
    obtain ⟨e, he', hb, rfl⟩ := hledger.mapped hmem
    rw [(hcore.serverSocket_inj he' he).2 hb.symm]
    exact hmem
  · cases hmem

end Tidy

/-- What the broker has open, where it is at rest and where it is gone. -/
structure Accounted (s : Dispatch) : Prop where
  listener {b n : Nat} : s.caller = .idle → s.table n = some (.listener b) → (b, n) ∈ s.registeredBlocks
  memfd {b n : Nat} : s.caller = .idle → s.table n = some (.memfd b) → n ∉ s.handles →
    ∃ entry ∈ s.sockets, entry.descriptor = n ∧ entry.block = b ∧ (b, entry.serverSocket) ∈ s.registeredBlocks
  gone {n : Nat} {x : FileObject} : s.caller = .gone → s.table n = some x → n ∈ s.handles ∨ ∃ tag, x = .foreign tag

/-- No interleaving leaves anything open that neither the registry nor the pool knows of, and in the end the pool's
memfds are all there is. -/
theorem nothing_left_open (h : Machine.Reach step Start s) : Accounted s := by
  have hs := Tidy.of_reach h
  have hcore : Core s.table s.handles s.sockets := hs.calm.core
  refine ⟨fun {b n} hidle hn => ?_, fun {b n} hidle hn hnot => ?_, fun {n x} hgone hn => ?_⟩
  · rcases mem_listening.1 (hs.claimed hn) with ⟨e, he, rfl⟩ | hmem
    · cases (hcore.entries he).serverSocket.symm.trans hn
      exact hs.registered hidle he
    · rw [hidle] at hmem
      cases hmem
  · rcases mem_duplicates.1 ((hs.claimed hn).resolve_left hnot) with ⟨e, he, rfl⟩ | hmem
    · cases (hcore.entries he).descriptor.symm.trans hn
      exact ⟨e, he, rfl, rfl, hs.registered hidle he⟩
    · rw [hidle] at hmem
      cases hmem
  · have hledger : Ledger s.sockets (s.caller.pending s.registeredBlocks) s.caller.entering := hs.calm.ledger
    rw [hgone] at hledger
    have hempty : ∀ e, e ∉ s.sockets := by
      intro e he
      rcases hledger.listed he with hmem | hmem <;> cases hmem
    have hclaim := hs.claimed hn
    cases x with
    | listener b =>
      rcases mem_listening.1 hclaim with ⟨e, he, -⟩ | hmem
      · exact absurd he (hempty e)
      · rw [hgone] at hmem
        cases hmem
    | memfd b =>
      refine .inl (hclaim.resolve_right fun hmem => ?_)
      rcases mem_duplicates.1 hmem with ⟨e, he, -⟩ | hmem
      · exact hempty e he
      · rw [hgone] at hmem
        cases hmem
    | client o =>
      change n ∈ s.dispatcher.clients at hclaim
      rw [hs.joined (.inr hgone)] at hclaim
      cases hclaim
    | event =>
      cases hclaim
      exact absurd hn (hs.ended hgone).1
    | epoll =>
      cases hclaim
      exact absurd hn (hs.ended hgone).2
    | foreign tag => exact .inr ⟨tag, rfl⟩

/-- Whatever the broker's threads have in hand, what they close is never another thread's, and never a memfd of the
pool. -/
theorem step_frame (h : Machine.Reach step Start s) (hst : step s op = some s') :
    (∀ n tag, s.table n = some (.foreign tag) → op ≠ .closeOther n → s'.table n = some (.foreign tag)) ∧
      ∀ b n, s.handles[b]? = some n → s'.table n = some (.memfd b) := by
  have hs := Tidy.of_reach h
  have hcore : Core s.table s.handles s.sockets := hs.calm.core
  have hp := Passed.of_step hs hst
  refine ⟨fun n tag hn hop => (hp.closed hn).resolve_right hop, fun b n hb => ?_⟩
  exact (hp.closed (hcore.memfds hb)).resolve_right fun hnot => hnot (List.mem_of_getElem? hb)

theorem started_start : Start started := by
  refine ⟨started_init, fun {n x} hx => ?_⟩
  simp only [started] at hx
  split at hx
  · rename_i hn
    cases hx
    exact .inl ⟨hn, rfl⟩
  · split at hx
    · rename_i hn
      cases hx
      exact .inr (.inl ⟨hn, rfl⟩)
    · cases hx

/-- The broker goes between `accept4` and `sendmsg`, and another thread gets number 5 before the client is served. -/
def interference : List DispatchOp := registration ++ acceptance ++ destruction ++ [.openOther 5 7]

/-- The dispatcher sends that number and ends; so does the destructor. -/
def ending : List DispatchOp :=
  [.dispatcher none none, .dispatcher none none, .dispatcher none none, .caller none, .caller none,
    .dispatcher none none,
    .caller none, .caller none]

theorem nothing_left_open_interference : ∃ s, Machine.run step started (interference ++ ending) = some s ∧
    s.caller = .gone ∧
    s.table 5 = some (.foreign 7) ∧ Accounted s := by
  have hrun : (Machine.run step started (interference ++ ending)).map (fun s => (s.caller, s.table 5)) =
      some (.gone, some (.foreign 7)) := by decide
  obtain ⟨s, hs, hpair⟩ := Option.map_eq_some_iff.1 hrun
  rw [Prod.mk.injEq] at hpair
  exact ⟨s, hs, hpair.1, hpair.2, nothing_left_open (.run (.start started_start) hs)⟩

/-- The dispatcher is about to send number 5, which is another thread's by now. -/
theorem step_frame_interference : ∃ s s', Machine.run step started interference = some s ∧
    step s (.dispatcher none none) = some s' ∧ s'.table 5 = some (.foreign 7) := by
  have hrun : (Machine.run step started interference).bind (fun s => (step s (.dispatcher none none)).map
      fun s' => (s.table 5, s'.deliveries)) = some (some (.foreign 7), [(some 0, .foreign 7)]) := by decide
  obtain ⟨s, hs, hrun⟩ := Option.bind_eq_some_iff.1 hrun
  obtain ⟨s', hst, hpair⟩ := Option.map_eq_some_iff.1 hrun
  rw [Prod.mk.injEq] at hpair
  exact ⟨s, s', hs, hst, (step_frame (.run (.start started_start) hs) hst).1 5 7 hpair.1 fun heq => (by cases heq)⟩

end Dispatch

end MemfdBuffer
