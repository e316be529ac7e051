import MemfdBuffer.Broker.Delivery
import MemfdBuffer.Lib.Fair

/-!
# The destructor comes to its end

`~SharedBufferFdBroker` waits for nobody before `join`, and the dispatcher looks at `running_` once for each return of
`epoll_wait`, which hands it at most 16 events. It waits for nobody either, unless it calls `accept4` on a socket that
another thread listens on: then the destructor may wait for ever.
-/

namespace MemfdBuffer

/-- In the destructor, before the join. -/
def CallerPc.removing : CallerPc → Bool
  | .remove _ | .epollDel .. | .closeSocket .. | .closeDescriptor .. | .stop => true
  | _ => false

/-- The steps that the destructor has left. -/
def CallerPc.left : CallerPc → Nat
  | .remove rest => 4 * rest.length + 4
  | .epollDel _ _ _ rest => 4 * rest.length + 7
  | .closeSocket _ _ _ rest => 4 * rest.length + 6
  | .closeDescriptor _ _ rest => 4 * rest.length + 5
  | .stop => 3
  | .join => 2
  | .finish => 1
  | _ => 0

/-- The most steps that the dispatcher has left once `running_` is down. -/
def DispatcherPc.left : DispatcherPc → Nat
  | .loop => 1
  | .wait => 67
  | .events l => 4 * l.length + 2
  | .accept _ _ l => 4 * l.length + 5
  | .send _ _ l => 4 * l.length + 4
  | .close _ l => 4 * l.length + 3
  | .done => 0

namespace DispatchOp

/-- A step of the caller. -/
def OfCaller (op : DispatchOp) : Prop := ∃ answer, op = .caller answer

def OfDispatcher (op : DispatchOp) : Prop := ∃ events client, op = .dispatcher events client

end DispatchOp

namespace Dispatch
variable {s s' : Dispatch} {op : DispatchOp}

/-- The steps that the dispatcher takes without waiting for anybody; `epoll_wait` returns after a second at the
latest. -/
def Unaided (s : Dispatch) (op : DispatchOp) : Prop := op.OfDispatcher ∧ ¬ s.Waits

/-! ### What the steps leave alone -/

theorem openFd_pcs {n : Nat} {x : FileObject} (h : s.openFd n x = some s') :
    s'.caller = s.caller ∧ s'.dispatcher = s.dispatcher ∧ s'.running = s.running := by
  obtain ⟨-, rfl⟩ := openFd_eq_some.1 h
  exact ⟨rfl, rfl, rfl⟩

/-- What a step does to the two threads. -/
inductive Moved (s : Dispatch) (op : DispatchOp) (s' : Dispatch) : Prop
  /-- Another thread's step, or a call that comes to nothing. -/
  | neither : ¬ op.OfCaller → ¬ op.OfDispatcher → s'.caller = s.caller → s'.dispatcher = s.dispatcher →
      s'.running = s.running → Moved s op s'
  | entered : ¬ op.OfDispatcher → s.caller = .idle → Moved s op s'
  | caller {answer : Option Nat} : op = .caller answer → s.callerStep answer s.caller = some s' → Moved s op s'
  | dispatcher {events : Option (List Nat)} {client : Option Nat} : op = .dispatcher events client →
      s.dispatcherStep events client s.dispatcher = some s' → Moved s op s'

theorem Moved.of_step (h : step s op = some s') : Moved s op s' := by
  cases op with
  | createBlock n =>
    obtain ⟨s₁, ho, rfl⟩ := Option.map_eq_some_iff.1 h
    obtain ⟨hc, hd, hr⟩ := openFd_pcs ho
    exact .neither (fun ⟨_, h⟩ => by cases h) (fun ⟨_, _, h⟩ => by cases h) hc hd hr
  | openOther n tag =>
    obtain ⟨hc, hd, hr⟩ := openFd_pcs h
    exact .neither (fun ⟨_, h⟩ => by cases h) (fun ⟨_, _, h⟩ => by cases h) hc hd hr
  | closeOther n =>
    simp only [step] at h
    split at h
    · cases h
      exact .neither (fun ⟨_, h⟩ => by cases h) (fun ⟨_, _, h⟩ => by cases h) rfl rfl rfl
    · cases h
  | registerBlock b =>
    obtain ⟨⟨hidle, -⟩, -⟩ := Option.ite_none_right_eq_some.1 h
    exact .entered (fun ⟨_, _, h⟩ => by cases h) hidle
  | destroy order =>
    obtain ⟨⟨hidle, -⟩, -⟩ := Option.ite_none_right_eq_some.1 h
    exact .entered (fun ⟨_, _, h⟩ => by cases h) hidle
  | caller answer => exact .caller rfl h
  | dispatcher events client => exact .dispatcher rfl h

/-- A step of the dispatcher is no step of the caller; while `running_` is down it brings the dispatcher nearer to its
end. -/
theorem dispatcherStep_left {events : Option (List Nat)} {client : Option Nat}
    (h : s.dispatcherStep events client s.dispatcher = some s') :
    s'.caller = s.caller ∧ s'.running = s.running ∧ (s.running = false → s'.dispatcher.left < s.dispatcher.left) := by
  cases hpc : s.dispatcher <;> rw [hpc] at h <;> simp only [dispatcherStep] at h
  case loop =>
    cases h
    refine ⟨rfl, rfl, fun hr => ?_⟩
    show (if s.running = true then DispatcherPc.wait else .done).left < _
    rw [hr]
    decide
  case wait =>
    split at h
    · cases h
      exact ⟨rfl, rfl, fun _ => (by decide : 0 < 67)⟩
    · rename_i l
      split at h
      · rename_i hl
        cases h
        refine ⟨rfl, rfl, fun _ => ?_⟩
        show 4 * l.length + 2 < 67
        omega
      · cases h
  case events l =>
    cases l with
    | nil =>
      cases h
      exact ⟨rfl, rfl, fun _ => (by decide : 1 < 2)⟩
    | cons n l =>
      have hless : (DispatcherPc.events l).left < (DispatcherPc.events (n :: l)).left := by
        simp only [DispatcherPc.left, List.length_cons]
        omega
      dsimp only at h
      split at h
      · cases h
        exact ⟨rfl, rfl, fun _ => hless⟩
      · split at h
        · cases h
          exact ⟨rfl, rfl, fun _ => hless⟩
        · rename_i entry _
          cases h
          refine ⟨rfl, rfl, fun _ => ?_⟩
          show 4 * l.length + 5 < 4 * (l.length + 1) + 2
          omega
  case accept n k l =>
    split at h
    · cases h
      refine ⟨rfl, rfl, fun _ => ?_⟩
      show 4 * l.length + 2 < 4 * l.length + 5
      omega
    · rename_i c
      obtain ⟨x, -, h⟩ := Option.bind_eq_some_iff.1 h
      obtain ⟨o, -, h⟩ := Option.bind_eq_some_iff.1 h
      obtain ⟨s₁, ho, h⟩ := Option.bind_eq_some_iff.1 h
      cases h
      obtain ⟨hc, -, hr⟩ := openFd_pcs ho
      refine ⟨hc, hr, fun _ => ?_⟩
      show 4 * l.length + 4 < 4 * l.length + 5
      omega
  case send c k l =>
    have hless : (DispatcherPc.close c l).left < (DispatcherPc.send c k l).left := by
      simp only [DispatcherPc.left]
      omega
    split at h <;> cases h <;> exact ⟨rfl, rfl, fun _ => hless⟩
  case close c l =>
    cases h
    refine ⟨rfl, rfl, fun _ => ?_⟩
    show 4 * l.length + 2 < 4 * l.length + 3
    omega
  case done => cases h

/-- A step of the destructor brings it nearer to its end. It lowers `running_` on the way to the join, and passes the
join when the dispatcher is done. -/
theorem callerStep_left {answer : Option Nat} (h : s.callerStep answer s.caller = some s') :
    s'.dispatcher = s.dispatcher ∧
      (s.caller.removing = true → s'.caller.left < s.caller.left ∧
        (s'.caller.removing = true ∨ s'.caller = .join ∧ s'.running = false)) ∧
      (s.caller = .join → s.dispatcher = .done ∧ s'.caller = .finish) ∧ (s.caller = .finish → s'.caller = .gone) := by
  cases hpc : s.caller <;> rw [hpc] at h <;> simp only [callerStep] at h
  case idle => cases h
  case gone => cases h
  case socket b =>
    refine ⟨?_, fun hr => (by cases hr), fun hj => (by cases hj), fun hj => (by cases hj)⟩
    split at h
    · cases h
      rfl
    · obtain ⟨s₁, ho, rfl⟩ := Option.map_eq_some_iff.1 h
      exact (openFd_pcs ho).2.1
  case bind b n =>
    refine ⟨?_, fun hr => (by cases hr), fun hj => (by cases hj), fun hj => (by cases hj)⟩
    split at h <;> cases h <;> rfl
  case dup b n =>
    refine ⟨?_, fun hr => (by cases hr), fun hj => (by cases hj), fun hj => (by cases hj)⟩
    split at h
    · split at h
      · cases h
        rfl
      · obtain ⟨s₁, ho, rfl⟩ := Option.map_eq_some_iff.1 h
        exact (openFd_pcs ho).2.1
    · cases h
      rfl
  case insert b n k =>
    cases h
    exact ⟨rfl, fun hr => (by cases hr), fun hj => (by cases hj), fun hj => (by cases hj)⟩
  case epollAdd b n k =>
    refine ⟨?_, fun hr => (by cases hr), fun hj => (by cases hj), fun hj => (by cases hj)⟩
    split at h <;> cases h <;> rfl
  case undo b n k =>
    cases h
    exact ⟨rfl, fun hr => (by cases hr), fun hj => (by cases hj), fun hj => (by cases hj)⟩
  case closeServer b n =>
    cases h
    exact ⟨rfl, fun hr => (by cases hr), fun hj => (by cases hj), fun hj => (by cases hj)⟩
  case remove rest =>
    cases rest with
    | nil =>
      cases h
      exact ⟨rfl, fun _ => ⟨(by decide : 3 < 4), .inl rfl⟩, fun hj => (by cases hj), fun hj => (by cases hj)⟩
    | cons item rest =>
      cases h
      refine ⟨rfl, fun _ => ⟨?_, .inl rfl⟩, fun hj => (by cases hj), fun hj => (by cases hj)⟩
      show 4 * rest.length + 7 < 4 * (rest.length + 1) + 4
      omega
  case epollDel b n k rest =>
    cases h
    refine ⟨rfl, fun _ => ⟨?_, .inl rfl⟩, fun hj => (by cases hj), fun hj => (by cases hj)⟩
    show 4 * rest.length + 6 < 4 * rest.length + 7
    omega
  case closeSocket b n k rest =>
    cases h
    refine ⟨rfl, fun _ => ?_, fun hj => (by cases hj), fun hj => (by cases hj)⟩
    cases k with
    | none =>
      refine ⟨?_, .inl rfl⟩
      show 4 * rest.length + 4 < 4 * rest.length + 6
      omega
    | some k =>
      refine ⟨?_, .inl rfl⟩
      show 4 * rest.length + 5 < 4 * rest.length + 6
      omega
  case closeDescriptor b k rest =>
    cases h
    refine ⟨rfl, fun _ => ⟨?_, .inl rfl⟩, fun hj => (by cases hj), fun hj => (by cases hj)⟩
    show 4 * rest.length + 4 < 4 * rest.length + 5
    omega
  case stop =>
    cases h
    exact ⟨rfl, fun _ => ⟨(by decide : 2 < 3), .inr ⟨rfl, rfl⟩⟩, fun hj => (by cases hj), fun hj => (by cases hj)⟩
  case join =>
    split at h
    · rename_i hd
      cases h
      exact ⟨rfl, fun hr => (by cases hr), fun _ => ⟨hd, rfl⟩, fun hj => (by cases hj)⟩
    · cases h
  case finish =>
    have hfold : ∀ (l : List SocketEntry) (s : Dispatch),
        (l.foldl (fun s entry => (s.closeFd entry.serverSocket).closeFd entry.descriptor) s).dispatcher =
          s.dispatcher :=
      fun l => by
        induction l with
        | nil => exact fun _ => rfl
        | cons entry l ih => exact fun s => ih _
    cases h
    exact ⟨hfold s.sockets s, fun hr => (by cases hr), fun hj => (by cases hj), fun _ => rfl⟩

/-! ### Who can go on -/

theorem removing_enabled (h : s.caller.removing = true) :
    Machine.Run.Enabled step (fun _ => DispatchOp.OfCaller) s := by
  have hstep : ∃ s', s.callerStep none s.caller = some s' := by
    cases hpc : s.caller <;> rw [hpc] at h
    case remove rest => cases rest <;> exact ⟨_, rfl⟩
    case epollDel => exact ⟨_, rfl⟩
    case closeSocket => exact ⟨_, rfl⟩
    case closeDescriptor => exact ⟨_, rfl⟩
    case stop => exact ⟨_, rfl⟩
    all_goals cases h
  obtain ⟨s', hs⟩ := hstep
  exact ⟨.caller none, s', ⟨none, rfl⟩, hs⟩

/-- Only an `accept4` can keep the dispatcher from going on. -/
theorem dispatcher_enabled (hw : ¬ s.Waits) (h : s.dispatcher ≠ .done) : Machine.Run.Enabled step Unaided s := by
  have hstep : ∃ s', s.dispatcherStep (some []) none s.dispatcher = some s' := by
    cases hpc : s.dispatcher with
    | loop => exact ⟨_, rfl⟩
    | wait =>
      simp only [dispatcherStep]
      rw [if_pos ⟨Nat.zero_le _, fun n hn => by cases hn⟩]
      exact ⟨_, rfl⟩
    | events l =>
      cases l with
      | nil => exact ⟨_, rfl⟩
      | cons n l =>
        simp only [dispatcherStep]
        split
        · exact ⟨_, rfl⟩
        · split <;> exact ⟨_, rfl⟩
    | accept n k l => exact ⟨_, rfl⟩
    | send c k l =>
      simp only [dispatcherStep]
      split <;> exact ⟨_, rfl⟩
    | close c l => exact ⟨_, rfl⟩
    | done => exact absurd hpc h
  obtain ⟨s', hs⟩ := hstep
  exact ⟨.dispatcher (some []) none, s', ⟨⟨_, _, rfl⟩, hw⟩, hs⟩

/-- A broker that closes no number that its dispatcher has in hand never makes it wait. -/
theorem not_waits_of_undisturbed (h : Machine.ReachIf step Init Undisturbed s) : ¬ s.Waits := fun hw => by
  have hinv : Inv s := h.inv (fun _ => Inv.init) fun _ _ _ hs hok hst => hs.step hok hst
  have hf := hinv.faces
  unfold Waits at hw
  split at hw
  · rename_i n k l hpc
    rw [hpc] at hf
    obtain ⟨b, hb, -⟩ := hf
    obtain ⟨tag, ht, -⟩ := hw
    rw [hb] at ht
    cases ht
  · exact hw

/-! ### The end -/

section
variable {r : Machine.Run step} {n : Nat}

/-- The destructor gets to the join. -/
theorem joins (hc : r.Fair fun _ => DispatchOp.OfCaller) (hn : (r.state n).caller.removing = true) :
    ∃ m, n ≤ m ∧ (r.state m).caller = .join ∧ (r.state m).running = false := by
  refine r.leadsTo (I := fun s => s.caller.removing = true) (Q := fun s => s.caller = .join ∧ s.running = false)
    (A := fun _ => True) (μ := fun s => s.caller.left) hc (fun _ _ => trivial) (fun s _ hi _ => removing_enabled hi)
    (fun s a s' hi _ hs => ?_) hn
  cases Moved.of_step hs with
  | neither hnot _ hcaller _ _ =>
    refine .inr ⟨by rw [hcaller]; exact hi, Nat.le_of_eq (by rw [hcaller]), fun h => absurd h hnot⟩
  | entered _ hidle =>
    rw [hidle] at hi
    cases hi
  | caller _ hst =>
    obtain ⟨hlt, hnext⟩ := (callerStep_left hst).2.1 hi
    rcases hnext with hr | hj
    · exact .inr ⟨hr, Nat.le_of_lt hlt, fun _ => hlt⟩
    · exact .inl hj
  | dispatcher hop hst =>
    have hcaller := (dispatcherStep_left hst).1
    refine .inr ⟨by rw [hcaller]; exact hi, Nat.le_of_eq (by rw [hcaller]), fun ⟨_, h⟩ => ?_⟩
    rw [hop] at h
    cases h

/-- While the destructor waits the dispatcher gets to its end. -/
theorem dispatcher_ends (hd : r.Fair Unaided) (hw : ∀ m, n ≤ m → ¬ (r.state m).Waits)
    (hn : (r.state n).caller = .join ∧ (r.state n).running = false) :
    ∃ m, n ≤ m ∧ (r.state m).caller = .join ∧ (r.state m).dispatcher = .done := by
  refine r.leadsTo (A := fun s => ¬ s.Waits) (I := fun s => s.caller = .join ∧ s.running = false)
    (Q := fun s => s.caller = .join ∧ s.dispatcher = .done) (μ := fun s => s.dispatcher.left) hd hw
    (fun s hw hi hq => dispatcher_enabled hw fun h => hq ⟨hi.1, h⟩) (fun s a s' hi hq hs => ?_) hn
  cases Moved.of_step hs with
  | neither _ hnot hcaller hdispatcher hrunning =>
    refine .inr ⟨⟨hcaller.trans hi.1, hrunning.trans hi.2⟩, Nat.le_of_eq (by rw [hdispatcher]),
      fun h => absurd h.1 hnot⟩
  | entered _ hidle =>
    rw [hidle] at hi
    cases hi.1
  | caller _ hst => exact absurd ⟨hi.1, ((callerStep_left hst).2.2.1 hi.1).1⟩ hq
  | dispatcher _ hst =>
    obtain ⟨hcaller, hrunning, hlt⟩ := dispatcherStep_left hst
    have hlt := hlt hi.2
    exact .inr ⟨⟨hcaller.trans hi.1, hrunning.trans hi.2⟩, Nat.le_of_lt hlt, fun _ => hlt⟩

/-- Behind the join the destructor is on its own. -/
theorem finishes (hc : r.Fair fun _ => DispatchOp.OfCaller)
    (hn : (r.state n).caller = .join ∧ (r.state n).dispatcher = .done) :
    ∃ m, n ≤ m ∧ (r.state m).caller = .gone ∧ (r.state m).dispatcher = .done := by
  refine r.leadsTo (I := fun s => (s.caller = .join ∨ s.caller = .finish) ∧ s.dispatcher = .done)
    (A := fun _ => True) (Q := fun s => s.caller = .gone ∧ s.dispatcher = .done) (μ := fun s => s.caller.left) hc
    (fun _ _ => trivial) (fun s _ hi _ => ?_) (fun s a s' hi hq hs => ?_) ⟨.inl hn.1, hn.2⟩
  · have hstep : ∃ s', s.callerStep none s.caller = some s' := by
      rcases hi.1 with h | h <;> rw [h]
      · exact ⟨_, if_pos hi.2⟩
      · exact ⟨_, rfl⟩
    obtain ⟨s', hs⟩ := hstep
    exact ⟨.caller none, s', ⟨none, rfl⟩, hs⟩
  · cases Moved.of_step hs with
    | neither hnot _ hcaller hdispatcher _ =>
      refine .inr ⟨⟨by rw [hcaller]; exact hi.1, hdispatcher.trans hi.2⟩, Nat.le_of_eq (by rw [hcaller]),
        fun h => absurd h hnot⟩
    | entered _ hidle =>
      rw [hidle] at hi
      rcases hi.1 with h | h <;> cases h
    | caller _ hst =>
      obtain ⟨hdispatcher, -, hjoin, hfinish⟩ := callerStep_left hst
      rcases hi.1 with h | h
      · have hf := (hjoin h).2
        have hlt : s'.caller.left < s.caller.left := by
          rw [h, hf]
          decide
        exact .inr ⟨⟨.inr hf, hdispatcher.trans hi.2⟩, Nat.le_of_lt hlt, fun _ => hlt⟩
      · exact .inl ⟨hfinish h, hdispatcher.trans hi.2⟩
    | dispatcher _ hst =>
      rw [hi.2] at hst
      cases hst

/-- Every fair run comes to the end of the destructor once it has begun, whatever the dispatcher is about and whatever
other threads do, unless the dispatcher calls `accept4` on a listening socket of theirs. -/
theorem destructor_returns (hc : r.Fair fun _ => DispatchOp.OfCaller) (hd : r.Fair Unaided)
    (hw : ∀ m, n ≤ m → ¬ (r.state m).Waits) (hn : (r.state n).caller.removing = true) :
    ∃ m, n ≤ m ∧ (r.state m).caller = .gone ∧ (r.state m).dispatcher = .done := by
  obtain ⟨m₁, h₁, hjoin⟩ := joins hc hn
  obtain ⟨m₂, h₂, hdone⟩ := dispatcher_ends hd (fun m hm => hw m (Nat.le_trans h₁ hm)) hjoin
  obtain ⟨m₃, h₃, hgone⟩ := finishes hc hdone
  exact ⟨m₃, Nat.le_trans h₁ (Nat.le_trans h₂ h₃), hgone⟩

end

/-! ### Runs that go on after the destructor, or without its end -/

/-- Another thread opens number 9. -/
def opened (s : Dispatch) : Dispatch := { s with table := Function.update s.table 9 (some (.foreign 0)) }

theorem openOther_opened (h : s.table 9 = none) : step s (.openOther 9 0) = some s.opened := openFd_eq_some.2 ⟨h, rfl⟩

theorem closeOther_opened (h : s.table 9 = none) (hi : s.interest = []) : step s.opened (.closeOther 9) = some s := by
  have htable : Function.update s.opened.table 9 none = s.table := by
    rw [opened, Function.update_idem]
    exact Function.update_eq_iff.2 ⟨h.symm, fun _ _ => rfl⟩
  have hclose : step s.opened (.closeOther 9) = some (s.opened.closeFd 9) := by
    simp only [step, opened, Function.update_self]
  rw [hclose, closeFd, htable]
  show some { s with interest := s.interest.filter _ } = some s
  rw [hi, List.filter_nil, ← hi]

/-- The destructor of a broker without blocks. -/
def leaving : List DispatchOp :=
  [.destroy [], .caller none, .caller none, .dispatcher none none, .caller none, .caller none]

def left : Dispatch := (Machine.run step started leaving).getD started

/-- Afterwards another thread opens number 9 and closes it again, over and over. -/
def leavingRun : Machine.Run step :=
  .toAndFro (show Machine.run step started leaving = some left from rfl) (openOther_opened rfl)
    (closeOther_opened rfl rfl)

/-- In the end neither thread of the broker takes another step. -/
theorem leavingRun_fair : leavingRun.Fair (fun _ => DispatchOp.OfCaller) ∧ leavingRun.Fair Unaided := by
  constructor
  · exact Machine.Run.toAndFro_fair fun ⟨_, _, ⟨_, ha⟩, hs⟩ => by
      subst ha
      cases hs
  · exact Machine.Run.toAndFro_fair fun ⟨_, _, ⟨⟨_, _, ha⟩, _⟩, hs⟩ => by
      subst ha
      cases hs

theorem leavingRun_not_waits (n : Nat) : ¬ (leavingRun.state n).Waits := by
  have hpc : (leavingRun.state n).dispatcher = .loop ∨ (leavingRun.state n).dispatcher = .done :=
    Machine.Run.toAndFro_all (P := fun s : Dispatch => s.dispatcher = .loop ∨ s.dispatcher = .done)
      (by decide) (.inr rfl) (.inr rfl) n
  unfold Waits
  rcases hpc with hpc | hpc <;> rw [hpc] <;> exact id

theorem destructor_returns_leaving : ∃ m, 1 ≤ m ∧ (leavingRun.state m).caller = .gone ∧
    (leavingRun.state m).dispatcher = .done :=
  destructor_returns leavingRun_fair.1 leavingRun_fair.2 (fun m _ => leavingRun_not_waits m) rfl

/-- The dispatcher has looked up socket 4; the destructor closes it, and another thread listens on a new socket 4. -/
def waiting : List DispatchOp :=
  registration ++ [.dispatcher none none, .dispatcher (some [4]) none, .dispatcher none none] ++ destruction ++
    [.openOther 4 7, .caller none, .caller none]

def startedAmongOthers : Dispatch := { started with listens := fun _ => true }

def joining : Dispatch := (Machine.run step startedAmongOthers waiting).getD startedAmongOthers

/-- The destructor waits for a dispatcher that waits for a client of somebody else. -/
theorem destructor_waits : ∃ (r : Machine.Run step) (n : Nat), Init (r.state 0) ∧
    r.Fair (fun _ => DispatchOp.OfCaller) ∧ r.Fair Unaided ∧ (r.state n).caller.removing = true ∧
    ∀ m, (r.state m).caller ≠ .gone := by
  have hw : joining.Waits := ⟨7, rfl, rfl⟩
  refine ⟨.toAndFro (show Machine.run step startedAmongOthers waiting = some joining from rfl) (openOther_opened rfl)
    (closeOther_opened rfl rfl), 11, ⟨rfl, rfl, rfl, rfl, rfl, rfl, rfl, rfl, rfl⟩, ?_, ?_, rfl, ?_⟩
  · exact Machine.Run.toAndFro_fair fun ⟨_, _, ⟨_, ha⟩, hs⟩ => by
      subst ha
      cases hs
  · exact Machine.Run.toAndFro_fair fun ⟨_, _, hg, _⟩ => hg.2 hw
  · exact Machine.Run.toAndFro_all (P := fun s : Dispatch => s.caller ≠ .gone) (by decide) (by decide) (by decide)

end Dispatch

end MemfdBuffer
