import MemfdBuffer.Proc.World
import MemfdBuffer.Lib.Machine

/-!
# First access to a buffer from several threads

`get_read_handle` and `get_write_handle` of any number of callers on one `SharedBuffer`, a step for each
access to `handle_state_` and for each section under the mutex. The mutex is inside the `HandleState`, so
nothing guards the pointer itself.
-/

namespace MemfdBuffer

open Slots Tally

/-- Where a caller stands. -/
inductive AccessPc
  | idle
  /-- `handle_state_` was null. -/
  | readInstall
  | readCopy
  | readEnter (h : Nat)
  | readLease (h : Nat)
  /-- The lease was refused. -/
  | readUndo (h : Nat)
  | writeInstall
  | writeSection
deriving DecidableEq, Repr

structure FirstAccess where
  buffer : SharedBuffer
  states : List HandleState := []
  reads : List (Option ReadHandle) := []
  writes : List (Option WriteHandle) := []
  threads : List AccessPc := []

inductive AccessOp
  /-- One more caller. -/
  | arrive
  /-- The beginning of `get_read_handle`, with the null test. -/
  | getReadHandle (t : Nat)
  | getWriteHandle (t : Nat)
  /-- The next step of a call; `granted` is the answer of `try_acquire_shared_buffer_reader`. -/
  | next (t : Nat) (granted : Bool)
  | destroyRead (j : Nat)
  | destroyWrite (l : Nat)

namespace FirstAccess

def setThread (s : FirstAccess) (t : Nat) (pc : AccessPc) : FirstAccess := { s with threads := s.threads.set t pc }

def setState (s : FirstAccess) (h : Nat) (state : HandleState) : FirstAccess :=
  { s with states := s.states.set h state }

/-- `handle_state_ = std::make_shared<HandleState>()`. -/
def install (s : FirstAccess) : FirstAccess :=
  { s with buffer := { s.buffer with handleState := some s.states.length }, states := s.states ++ [{}] }

/-- The part of `get_write_handle` under the mutex. -/
def writeSection (s : FirstAccess) : Option FirstAccess := do
  let h ← s.buffer.handleState
  let state ← s.states[h]?
  if state.state = .unset ∧ state.activeReaders = 0 then
    return { s.setState h { state with state := .inUse } with
      writes := s.writes ++ [some { dataPtr := s.buffer.dataPtr, state := some h, owner := s.buffer.owner }] }
  else return s

/-- The handle that `get_read_handle` returns. -/
def addRead (s : FirstAccess) (h : Nat) : FirstAccess :=
  let handle : ReadHandle :=
    { dataPtr := s.buffer.dataPtr, state := some h, readerLease := s.buffer.control, owner := s.buffer.owner }
  { s with reads := s.reads ++ [some handle] }

def next (s : FirstAccess) (t : Nat) (granted : Bool) : AccessPc → Option FirstAccess
  | .idle => none
  | .readInstall => some (s.install.setThread t .readCopy)
  | .readCopy => do return s.setThread t (.readEnter (← s.buffer.handleState))
  | .readEnter h => do
    let state ← s.states[h]?
    if state.state = .inUse then return s.setThread t .idle
    else return (s.setState h state.enter).setThread t (.readLease h)
  | .readLease h =>
    if s.buffer.control = none ∨ granted = true then some ((s.addRead h).setThread t .idle)
    else some (s.setThread t (.readUndo h))
  | .readUndo h => do
    let state ← s.states[h]?
    return (s.setState h state.leave).setThread t .idle
  | .writeInstall => some (s.install.setThread t .writeSection)
  | .writeSection => do return (← s.writeSection).setThread t .idle

/-- The release of a handle: what it does under the mutex of its state. -/
def release (s : FirstAccess) (f : HandleState → HandleState) : Option Nat → FirstAccess
  | none => s
  | some h =>
    match s.states[h]? with
    | some state => s.setState h (f state)
    | none => s

def step (s : FirstAccess) : AccessOp → Option FirstAccess
  | .arrive => some { s with threads := s.threads ++ [.idle] }
  | .getReadHandle t =>
    if s.threads[t]? = some .idle then
      some (s.setThread t (if s.buffer.handleState = none then .readInstall else .readCopy))
    else none
  | .getWriteHandle t =>
    if s.threads[t]? = some .idle then
      if s.buffer.writable = false ∨ s.buffer.dataPtr = none ∨ s.buffer.size = 0 then some s
      else some (s.setThread t (if s.buffer.handleState = none then .writeInstall else .writeSection))
    else none
  | .next t granted => do s.next t granted (← s.threads[t]?)
  | .destroyRead j => do
    let r ← get s.reads j
    return { s.release HandleState.leave r.state with reads := s.reads.set j none }
  | .destroyWrite l => do
    let k ← get s.writes l
    return { s.release (fun state => { state with state := .finalized }) k.state with writes := s.writes.set l none }

/-- A buffer that nobody has accessed. -/
def Init (s : FirstAccess) : Prop :=
  s.buffer.handleState = none ∧ s.states = [] ∧ s.reads = [] ∧ s.writes = [] ∧ s.threads = []

abbrev Reachable (s : FirstAccess) : Prop := Machine.Reach step Init s

/-- The live handles. -/
def live {α : Type} (l : List (Option α)) : Nat := total (fun _ => 1) l

/-- A write handle that is not finalised is the only handle. -/
def Exclusive (s : FirstAccess) : Prop :=
  ∀ l k h state, get s.writes l = some k → k.state = some h → s.states[h]? = some state → state.state = .inUse →
    live s.writes = 1 ∧ live s.reads = 0

/-- A caller that is about to install a state finds the pointer still null. -/
def Undisturbed (s : FirstAccess) : AccessOp → Prop
  | .next t _ =>
    s.threads[t]? = some .readInstall ∨ s.threads[t]? = some .writeInstall → s.buffer.handleState = none
  | _ => True

instance (s : FirstAccess) (op : AccessOp) : Decidable (Undisturbed s op) := by
  unfold Undisturbed
  split <;> infer_instance

/-- A caller that has counted itself and holds no handle yet. -/
def counted : AccessPc → Nat
  | .readLease _ | .readUndo _ => 1
  | _ => 0

/-- What a caller may hold: its state is the one in the buffer. -/
def Points (s : FirstAccess) : AccessPc → Prop
  | .idle | .readInstall | .writeInstall => True
  | .readCopy | .writeSection => s.buffer.handleState = some 0
  | .readEnter h | .readLease h | .readUndo h => h = 0 ∧ s.buffer.handleState = some 0

/-- The one state of the buffer, with the handles on it. -/
structure Law (s : FirstAccess) (state : HandleState) : Prop where
  readers : state.activeReaders = live s.reads + tally counted s.threads
  writers : live s.writes = if state.state = .inUse then 1 else 0
  alone : state.state = .inUse → state.activeReaders = 0

structure Inv (s : FirstAccess) : Prop where
  before : s.buffer.handleState = none → s.states = [] ∧ live s.reads = 0 ∧ live s.writes = 0 ∧
    tally counted s.threads = 0
  after {h : Nat} : s.buffer.handleState = some h → h = 0 ∧ ∃ state, s.states = [state] ∧ Law s state
  threads {t : Nat} {pc : AccessPc} : s.threads[t]? = some pc → Points s pc
  reads {j : Nat} {r : ReadHandle} : get s.reads j = some r → r.state = some 0
  writes {l : Nat} {k : WriteHandle} : get s.writes l = some k → k.state = some 0

section
variable {s s' : FirstAccess} {t j l n : Nat} {pc pc' pc'' : AccessPc} {state : HandleState} {op : AccessOp}

theorem Points.congr (hb : s'.buffer.handleState = s.buffer.handleState) (h : Points s pc) : Points s' pc := by
  cases pc <;> simp only [Points, hb] at h ⊢ <;> exact h

/-- Who waits to install holds nothing; everybody else has seen a state. -/
theorem Points.of_none (hb : s.buffer.handleState = none) (h : Points s pc) :
    pc = .idle ∨ pc = .readInstall ∨ pc = .writeInstall := by
  cases pc <;> simp [Points, hb] at h ⊢

theorem threads_setThread (ht : s.threads[t]? = some pc) :
    (s.setThread t pc').threads[n]? = if n = t then some pc' else s.threads[n]? := by
  unfold setThread
  by_cases hn : n = t
  · subst hn
    rw [if_pos rfl, get_set_self ht]
  · rw [if_neg hn, List.getElem?_set_ne (Ne.symm hn)]

theorem tally_setThread (ht : s.threads[t]? = some pc) (pc' : AccessPc) :
    tally counted (s.setThread t pc').threads + counted pc = tally counted s.threads + counted pc' :=
  tally_set ht pc'

namespace Inv

/-- The invariant of a buffer that has its state. -/
theorem of_law (state : HandleState) (hb : s.buffer.handleState = some 0) (hs : s.states = [state]) (hl : Law s state)
    (ht : ∀ {t : Nat} {pc : AccessPc}, s.threads[t]? = some pc → Points s pc)
    (hr : ∀ {j : Nat} {r : ReadHandle}, Slots.get s.reads j = some r → r.state = some 0)
    (hw : ∀ {l : Nat} {k : WriteHandle}, Slots.get s.writes l = some k → k.state = some 0) : Inv s where
  before hnone := by
    rw [hb] at hnone
    cases hnone
  after hsome := by
    rw [hb] at hsome
    cases hsome
    exact ⟨rfl, state, hs, hl⟩
  threads := ht
  reads := hr
  writes := hw

/-- The state that a caller past the null test works on. -/
theorem law (h : Inv s) (hb : s.buffer.handleState = some 0) : ∃ state, s.states = [state] ∧ Law s state :=
  (h.after hb).2

theorem arrive (h : Inv s) : Inv { s with threads := s.threads ++ [.idle] } where
  before hb := by
    obtain ⟨h1, h2, h3, h4⟩ := h.before hb
    refine ⟨h1, h2, h3, ?_⟩
    rw [tally_append, h4]
    rfl
  after hb := by
    obtain ⟨h0, state, hs, hl⟩ := h.after hb
    refine ⟨h0, state, hs, ?_, hl.writers, hl.alone⟩
    rw [tally_append, hl.readers]
    rfl
  threads {n pc} hn := by
    rcases get_append_cases hn with hn | ⟨-, rfl⟩
    · exact (h.threads hn).congr rfl
    · trivial
  reads := h.reads
  writes := h.writes

/-- A step of one thread that leaves the pointer of the buffer alone. -/
theorem points_setThread (h : Inv s) (pc' : AccessPc) (hb : s'.buffer.handleState = s.buffer.handleState)
    (ht : s.threads[t]? = some pc) (hp : Points s' pc') (hn : (s.setThread t pc').threads[n]? = some pc'') :
    Points s' pc'' := by
  rw [threads_setThread ht] at hn
  split at hn
  · cases hn
    exact hp
  · exact (h.threads hn).congr hb

/-- A caller goes on without counting itself in or out. -/
theorem setThread (h : Inv s) (ht : s.threads[t]? = some pc) (hp : Points s pc') (hc : counted pc' = counted pc) :
    Inv (s.setThread t pc') := by
  have htally := tally_setThread ht pc'
  have hsame : tally counted (s.setThread t pc').threads = tally counted s.threads := by omega
  refine ⟨fun hb => ?_, fun hb => ?_, fun {n q} hn => ?_, h.reads, h.writes⟩
  · obtain ⟨h1, h2, h3, h4⟩ := h.before hb
    exact ⟨h1, h2, h3, hsame.trans h4⟩
  · obtain ⟨h0, state, hs, hl⟩ := h.after hb
    refine ⟨h0, state, hs, ?_, hl.writers, hl.alone⟩
    rw [hsame]
    exact hl.readers
  · exact h.points_setThread pc' rfl ht (hp.congr rfl) hn

/-- A state is installed where there was none. -/
theorem install (h : Inv s) (hb : s.buffer.handleState = none) : Inv s.install := by
  obtain ⟨h1, h2, h3, h4⟩ := h.before hb
  refine of_law {} ?_ ?_ ⟨?_, h3, fun hu => by cases hu⟩ (fun {n q} hn => ?_) h.reads h.writes
  · show some s.states.length = some 0
    rw [h1]
    rfl
  · show s.states ++ [({} : HandleState)] = [{}]
    rw [h1]
    rfl
  · show 0 = live s.reads + tally counted s.threads
    omega
  · rcases (h.threads hn).of_none hb with rfl | rfl | rfl <;> trivial

/-- A reader counts itself in. -/
theorem enter (h : Inv s) (hb : s.buffer.handleState = some 0) (ht : s.threads[t]? = some (.readEnter 0))
    (hs : s.states[0]? = some state) (hu : state.state ≠ .inUse) :
    Inv ((s.setState 0 state.enter).setThread t (.readLease 0)) := by
  obtain ⟨state', hs', hl⟩ := h.law hb
  rw [hs'] at hs
  cases hs
  have htally := tally_setThread ht (.readLease 0)
  simp only [counted] at htally
  refine of_law state.enter hb ?_ ⟨?_, ?_, fun hu' => absurd hu' hu⟩ (fun {n q} hn => ?_) h.reads h.writes
  · show s.states.set 0 state.enter = _
    rw [hs']
    rfl
  · show state.activeReaders + 1 = live s.reads + tally counted (s.setThread t (.readLease 0)).threads
    rw [hl.readers]
    omega
  · exact hl.writers
  · exact h.points_setThread (.readLease 0) rfl ht ⟨rfl, hb⟩ hn

/-- A counted reader gets its handle. -/
theorem addRead (h : Inv s) (hb : s.buffer.handleState = some 0) (ht : s.threads[t]? = some (.readLease 0)) :
    Inv ((s.addRead 0).setThread t .idle) := by
  obtain ⟨state, hs, hl⟩ := h.law hb
  have htally := tally_setThread ht .idle
  simp only [counted] at htally
  refine of_law state hb hs ⟨?_, hl.writers, hl.alone⟩ (fun {n q} hn => ?_) (fun {j r} hr => ?_) h.writes
  · show state.activeReaders = total _ (s.reads ++ [some _]) + tally counted (s.setThread t .idle).threads
    have hr := hl.readers
    unfold live at hr
    rw [total_append]
    omega
  · exact h.points_setThread .idle rfl ht trivial hn
  · change Slots.get (s.reads ++ [some _]) j = some r at hr
    rw [get_append] at hr
    split at hr
    · cases hr
      rfl
    · exact h.reads hr

/-- A reader whose lease was refused counts itself out. -/
theorem undo (h : Inv s) (hb : s.buffer.handleState = some 0) (ht : s.threads[t]? = some (.readUndo 0))
    (hs : s.states[0]? = some state) : Inv ((s.setState 0 state.leave).setThread t .idle) := by
  obtain ⟨state', hs', hl⟩ := h.law hb
  rw [hs'] at hs
  cases hs
  have htally := tally_setThread ht .idle
  simp only [counted] at htally
  refine of_law state.leave hb ?_ ⟨?_, hl.writers, fun hu => ?_⟩ (fun {n q} hn => ?_) h.reads h.writes
  · show s.states.set 0 state.leave = _
    rw [hs']
    rfl
  · show state.activeReaders - 1 = live s.reads + tally counted (s.setThread t .idle).threads
    rw [hl.readers]
    omega
  · show state.activeReaders - 1 = 0
    rw [hl.alone hu]
  · exact h.points_setThread .idle rfl ht trivial hn

/-- A writer is refused, or is alone with its handle. -/
theorem writeSection (h : Inv s) (hb : s.buffer.handleState = some 0) (hw : s.writeSection = some s') :
    Inv s' ∧ s'.threads = s.threads ∧ s'.buffer = s.buffer := by
  obtain ⟨state, hs, hl⟩ := h.law hb
  rw [FirstAccess.writeSection, hb, Option.bind_eq_bind, Option.bind_some, hs] at hw
  obtain ⟨state', hs', hw⟩ := Option.bind_eq_some_iff.1 hw
  cases hs'
  split at hw
  · rename_i hfree
    cases hw
    refine ⟨of_law { state with state := .inUse } hb ?_ ⟨hl.readers, ?_, fun _ => hfree.2⟩
      (fun hn => (h.threads hn).congr rfl) h.reads fun {l k} hk => ?_, rfl, rfl⟩
    · show s.states.set 0 _ = _
      rw [hs]
      rfl
    · show total _ (s.writes ++ [some _]) = 1
      have hnone := hl.writers
      rw [if_neg (by rw [hfree.1]; decide)] at hnone
      unfold live at hnone
      rw [total_append, hnone]
    · change Slots.get (s.writes ++ [some _]) l = some k at hk
      rw [get_append] at hk
      split at hk
      · cases hk
        rfl
      · exact h.writes hk
  · cases hw
    exact ⟨h, rfl, rfl⟩

theorem points_install (h : Inv s) (hb : s.buffer.handleState = none) : s.install.buffer.handleState = some 0 := by
  show some s.states.length = some 0
  rw [(h.before hb).1]
  rfl

/-- One step of a call, with nothing overwritten when a state is installed. -/
theorem next {granted : Bool} (h : Inv s) (ht : s.threads[t]? = some pc)
    (hok : pc = .readInstall ∨ pc = .writeInstall → s.buffer.handleState = none)
    (hn : s.next t granted pc = some s') : Inv s' := by
  cases pc with
  | idle => cases hn
  | readInstall =>
    have hb := hok (.inl rfl)
    cases hn
    exact (h.install hb).setThread ht (h.points_install hb) rfl
  | readCopy =>
    have hb : s.buffer.handleState = some 0 := h.threads ht
    rw [FirstAccess.next, hb] at hn
    cases hn
    exact h.setThread ht ⟨rfl, hb⟩ rfl
  | readEnter n =>
    obtain ⟨rfl, hb⟩ : n = 0 ∧ _ := h.threads ht
    obtain ⟨state, hs, hn⟩ := Option.bind_eq_some_iff.1 hn
    split at hn
    · cases hn
      exact h.setThread ht trivial rfl
    · rename_i hu
      cases hn
      exact h.enter hb ht hs hu
  | readLease n =>
    obtain ⟨rfl, hb⟩ : n = 0 ∧ _ := h.threads ht
    rw [FirstAccess.next] at hn
    split at hn
    · cases hn
      exact h.addRead hb ht
    · cases hn
      exact h.setThread ht ⟨rfl, hb⟩ rfl
  | readUndo n =>
    obtain ⟨rfl, hb⟩ : n = 0 ∧ _ := h.threads ht
    obtain ⟨state, hs, hn⟩ := Option.bind_eq_some_iff.1 hn
    cases hn
    exact h.undo hb ht hs
  | writeInstall =>
    have hb := hok (.inr rfl)
    cases hn
    exact (h.install hb).setThread ht (h.points_install hb) rfl
  | writeSection =>
    have hb : s.buffer.handleState = some 0 := h.threads ht
    obtain ⟨s₁, hw, hn⟩ := Option.bind_eq_some_iff.1 hn
    cases hn
    obtain ⟨h₁, hthreads, -⟩ := h.writeSection hb hw
    have ht₁ : s₁.threads[t]? = some .writeSection := by rw [hthreads, ht]
    exact h₁.setThread ht₁ trivial rfl

/-- Where a handle is alive, the state it counts on is there. -/
theorem read_state {r : ReadHandle} (h : Inv s) (hr : Slots.get s.reads j = some r) :
    s.buffer.handleState = some 0 := by
  cases hb : s.buffer.handleState with
  | none =>
    have hle : 1 ≤ live s.reads := le_total (f := fun _ => 1) hr
    have := (h.before hb).2.1
    omega
  | some n =>
    obtain ⟨rfl, -⟩ := h.after hb
    rfl

theorem write_state {k : WriteHandle} (h : Inv s) (hk : Slots.get s.writes l = some k) :
    s.buffer.handleState = some 0 := by
  cases hb : s.buffer.handleState with
  | none =>
    have hle : 1 ≤ live s.writes := le_total (f := fun _ => 1) hk
    have := (h.before hb).2.2.1
    omega
  | some n =>
    obtain ⟨rfl, -⟩ := h.after hb
    rfl

/-- The release of the state under a handle of the buffer. -/
theorem release_eq {f : HandleState → HandleState} (hs : s.states = [state]) :
    s.release f (some 0) = { s with states := [f state] } := by
  unfold FirstAccess.release
  rw [hs]
  show { s with states := s.states.set 0 (f state) } = _
  rw [hs]
  rfl

theorem destroyRead {r : ReadHandle} (h : Inv s) (hr : Slots.get s.reads j = some r) :
    Inv { s.release HandleState.leave r.state with reads := s.reads.set j none } := by
  have hb := h.read_state hr
  obtain ⟨state, hs, hl⟩ := h.law hb
  rw [h.reads hr, release_eq hs]
  refine of_law state.leave hb rfl ⟨?_, hl.writers, fun hu => ?_⟩ (fun hn => (h.threads hn).congr rfl)
    (fun {n q} hn => ?_) h.writes
  · have hset : live (s.reads.set j none) + 1 = live s.reads := total_set (f := fun _ => 1) hr none
    show state.activeReaders - 1 = live (s.reads.set j none) + tally counted s.threads
    rw [hl.readers]
    omega
  · show state.activeReaders - 1 = 0
    rw [hl.alone hu]
  · change Slots.get (s.reads.set j none) n = some q at hn
    rw [get_set hr] at hn
    split at hn
    · cases hn
    · exact h.reads hn

theorem destroyWrite {k : WriteHandle} (h : Inv s) (hk : Slots.get s.writes l = some k) :
    Inv { s.release (fun state => { state with state := .finalized }) k.state with writes := s.writes.set l none } := by
  have hb := h.write_state hk
  obtain ⟨state, hs, hl⟩ := h.law hb
  rw [h.writes hk, release_eq hs]
  refine of_law { state with state := .finalized } hb rfl ⟨hl.readers, ?_, fun hu => by cases hu⟩
    (fun hn => (h.threads hn).congr rfl) h.reads (fun {n q} hn => ?_)
  · have hset : live (s.writes.set l none) + 1 = live s.writes := total_set (f := fun _ => 1) hk none
    have hle := hl.writers
    show live (s.writes.set l none) = 0
    split at hle <;> omega
  · change Slots.get (s.writes.set l none) n = some q at hn
    rw [get_set hk] at hn
    split at hn
    · cases hn
    · exact h.writes hn

theorem init (h : Init s) : Inv s := by
  obtain ⟨hb, hs, hr, hw, ht⟩ := h
  refine ⟨fun _ => ?_, fun hsome => ?_, fun hn => ?_, fun hn => ?_, fun hn => ?_⟩
  · rw [hs, hr, hw, ht]
    exact ⟨rfl, rfl, rfl, rfl⟩
  · rw [hb] at hsome
    cases hsome
  · rw [ht] at hn
    cases hn
  · rw [hr] at hn
    cases hn
  · rw [hw] at hn
    cases hn

/-- What a step keeps when it installs a state only where there is none. -/
theorem step (h : Inv s) (hok : Undisturbed s op) (hst : step s op = some s') : Inv s' := by
  cases op with
  | arrive =>
    cases hst
    exact h.arrive
  | getReadHandle t =>
    obtain ⟨ht, hst⟩ := Option.ite_none_right_eq_some.1 hst
    cases hst
    refine h.setThread ht ?_ ?_
    · split
      · trivial
      · rename_i hb
        obtain ⟨n, hb⟩ := Option.ne_none_iff_exists'.1 hb
        obtain ⟨rfl, -⟩ := h.after hb
        exact hb
    · split <;> rfl
  | getWriteHandle t =>
    obtain ⟨ht, hst⟩ := Option.ite_none_right_eq_some.1 hst
    split at hst
    · cases hst
      exact h
    · cases hst
      refine h.setThread ht ?_ ?_
      · split
        · trivial
        · rename_i hb
          obtain ⟨n, hb⟩ := Option.ne_none_iff_exists'.1 hb
          obtain ⟨rfl, -⟩ := h.after hb
          exact hb
      · split <;> rfl
  | next t granted =>
    obtain ⟨pc, ht, hn⟩ := Option.bind_eq_some_iff.1 hst
    refine h.next ht (fun hpc => hok ?_) hn
    rw [ht]
    exact hpc.imp (congrArg some) (congrArg some)
  | destroyRead j =>
    obtain ⟨r, hr, hst⟩ := Option.bind_eq_some_iff.1 hst
    cases hst
    exact h.destroyRead hr
  | destroyWrite l =>
    obtain ⟨k, hk, hst⟩ := Option.bind_eq_some_iff.1 hst
    cases hst
    exact h.destroyWrite hk

/-- A writer in use has the buffer to itself. -/
theorem exclusive (h : Inv s) : Exclusive s := by
  intro l k n st hk hkn hs hu
  have hb := h.write_state hk
  obtain ⟨state, hst, hl⟩ := h.law hb
  rw [h.writes hk] at hkn
  cases hkn
  rw [hst] at hs
  cases hs
  have hw := hl.writers
  rw [if_pos hu] at hw
  have hr := hl.readers
  rw [hl.alone hu] at hr
  exact ⟨hw, by omega⟩

end Inv

/-- Readers and the writer exclude each other as long as no caller installs a state over another one. -/
theorem exclusive_undisturbed (h : Machine.ReachIf step Init Undisturbed s) : Exclusive s :=
  (h.inv (P := Inv) (fun _ => Inv.init) fun _ _ _ h hok hst => h.step hok hst).exclusive

end

/-- A local writable buffer before its first access. -/
def fresh : FirstAccess := { buffer := { dataPtr := some 0, size := 8, control := some 0 } }

theorem fresh_init : Init fresh := ⟨rfl, rfl, rfl, rfl, rfl⟩

/-- A reader comes while a writer holds the buffer, and again when the writer is gone. -/
def inTurn : List AccessOp :=
  [.arrive, .arrive, .getWriteHandle 0, .next 0 true, .next 0 true, .getReadHandle 1, .next 1 true, .next 1 true,
   .destroyWrite 0, .getReadHandle 1, .next 1 true, .next 1 true, .next 1 true]

theorem exclusive_undisturbed_inTurn : ∃ s, Machine.run step fresh inTurn = some s ∧ live s.reads = 1 ∧
    Exclusive s := by
  have hlive : (Machine.run step fresh inTurn).map (fun s => live s.reads) = some 1 := by decide
  obtain ⟨s, hrun, hreads⟩ := Option.map_eq_some_iff.1 hlive
  exact ⟨s, hrun, hreads, exclusive_undisturbed (.run (.start fresh_init) (by decide) hrun)⟩

/-- Two callers find the pointer null; the second installation leaves the first writer on a state of its own. -/
def installedTwice : List AccessOp :=
  [.arrive, .arrive, .getWriteHandle 0, .getWriteHandle 1, .next 0 true, .next 0 true, .next 1 true, .next 1 true]

theorem not_exclusive_installedTwice : ∃ s, Reachable s ∧ ¬ Exclusive s := by
  have hlive : (Machine.run step fresh installedTwice).map (fun s => live s.writes) = some 2 := by decide
  have hstate : (Machine.run step fresh installedTwice).map (fun s => s.states[0]?.map HandleState.state) =
      some (some .inUse) := by decide
  have hfirst : (Machine.run step fresh installedTwice).map (fun s => (get s.writes 0).map WriteHandle.state) =
      some (some (some 0)) := by decide
  obtain ⟨s, hrun, htwo⟩ := Option.map_eq_some_iff.1 hlive
  rw [hrun] at hstate hfirst
  obtain ⟨state, hs, hu⟩ := Option.map_eq_some_iff.1 (Option.some.inj hstate)
  obtain ⟨k, hk, hkn⟩ := Option.map_eq_some_iff.1 (Option.some.inj hfirst)
  refine ⟨s, Machine.Reach.run (.start fresh_init) hrun, fun hex => ?_⟩
  have hone := (hex 0 k 0 state hk hkn hs hu).1
  rw [htwo] at hone
  cases hone

end FirstAccess

end MemfdBuffer
