import MemfdBuffer.Proc.Handles
import MemfdBuffer.Ownership
import MemfdBuffer.Lib.Machine

/-!
# The life of a handle state

The calls of `shared_buffer.hpp` on buffers of any kind, over memory that may change in any way between
them. What a call does to the handle states and to the handles bound to them is a `Change`; the laws of the
state machine follow from its kinds alone.
-/

namespace MemfdBuffer.Proc

open Slots

structure HandleRun where
  world : World := {}
  -- history
  /-- The write handles issued for a state. -/
  issued : Nat → Nat := fun _ => 0
  /-- `finalize_write_handle` was called while the write handle of the state was alive. -/
  ended : Nat → Bool := fun _ => false

inductive HandleOp
  | construct (payload : Option Nat) (deleter : Deleter) (args : BufferArgs)
  | moveBuf (j : Nat)
  | assignBuf (i j : Nat)
  | destroyBuf (i : Nat)
  | getReadHandle (i : Nat)
  | getWriteHandle (i : Nat)
  | finalizeWriteHandle (i : Nat)
  | moveRead (j : Nat)
  | assignRead (i j : Nat)
  | destroyRead (j : Nat)
  | moveWrite (j : Nat)
  | assignWrite (i j : Nat)
  | destroyWrite (j : Nat)
  /-- Whatever else happens to blocks and headers. -/
  | memory (pool : Pool)

namespace HandleRun

def withWorld (r : HandleRun) (w : World) : HandleRun := { r with world := w }

/-- A write handle for state `n` has been issued. -/
def issue (r : HandleRun) (n : Nat) : HandleRun :=
  { r with issued := Function.update r.issued n (r.issued n + 1) }

/-- `finalize_write_handle` meets the live write handle of state `n`. -/
def finalize (r : HandleRun) : Option Nat → HandleRun
  | some n => { r with ended := Function.update r.ended n (r.ended n || decide (0 < r.world.writers n)) }
  | none => r

def step (r : HandleRun) : HandleOp → Option HandleRun
  | .construct payload deleter args =>
    match SharedBuffer.construct payload args.size deleter args.control args.owner args.blockId args.mappedSize
      args.writable args.ipcPid args.ipcName args.ipcUid with
    | .ok x => some (r.withWorld (r.world.addBuf ⟨1, args.size, x⟩))
    | .error _ => some r
  | .moveBuf j => do
    let _ ← r.world.buf j
    return r.withWorld ((r.world.addBuf ⟨1, {}⟩).transfer r.world.bufs.length j)
  | .assignBuf i j => do
    let _ ← r.world.buf i
    let _ ← r.world.buf j
    return r.withWorld (r.world.assign i j)
  | .destroyBuf i => do
    let _ ← r.world.buf i
    return r.withWorld (r.world.destroyBuf i)
  | .getReadHandle i => do return r.withWorld (← r.world.getReadHandle i).1
  | .getWriteHandle i => do
    match ← r.world.getWriteHandle i with
    | (w, .error _) => return r.withWorld w
    | (w, .ok l) =>
      let n ← w.write l >>= (·.state)
      return (r.withWorld w).issue n
  | .finalizeWriteHandle i => do
    let s ← r.world.buf i
    return (r.finalize s.shared.handleState).withWorld (r.world.finalizeWriteHandle s.shared)
  | .moveRead j => do
    let _ ← r.world.read j
    return r.withWorld ((r.world.addRead {}).transferRead r.world.reads.length j)
  | .assignRead i j => do
    let _ ← r.world.read i
    let _ ← r.world.read j
    return r.withWorld (if i = j then r.world else (r.world.releaseRead i).transferRead i j)
  | .destroyRead j => do
    let _ ← r.world.read j
    return r.withWorld (r.world.destroyRead j)
  | .moveWrite j => do
    let _ ← r.world.write j
    return r.withWorld ((r.world.addWrite {}).transferWrite r.world.writes.length j)
  | .assignWrite i j => do
    let _ ← r.world.write i
    let _ ← r.world.write j
    return r.withWorld (if i = j then r.world else (r.world.releaseWrite i).transferWrite i j)
  | .destroyWrite j => do
    let _ ← r.world.write j
    return r.withWorld (r.world.destroyWrite j)
  | .memory pool => some (r.withWorld (r.world.withPool pool))

/-- A program that has made no buffer yet. -/
def Init (r : HandleRun) : Prop := r = {}

abbrev Reachable (r : HandleRun) : Prop := Machine.Reach step Init r

/-- The live write handles of state `n` that have not been finalised. -/
def unfinalised (r : HandleRun) (n : Nat) : Nat :=
  total (fun h : WriteHandle => if h.state = some n ∧ r.ended n = false then 1 else 0) r.world.writes

end HandleRun

/-- What a call does to the handle states. -/
inductive Kind
  | quiet
  | enter (n : Nat)
  | leave (o : Option Nat)
  | issue (n : Nat)
  | finalize (o : Option Nat)
  | drop (o : Option Nat)

namespace Kind

/-- Its effect on state `m`. -/
def on (m : Nat) (state : HandleState) : Kind → HandleState
  | quiet => state
  | enter n => if m = n then state.enter else state
  | leave o => if o = some m then state.leave else state
  | issue n => if m = n then { state with state := .inUse } else state
  | finalize o => if o = some m ∧ state.state = .inUse then { state with state := .finalized } else state
  | drop o => if o = some m then { state with state := .finalized } else state

/-- The read handles it binds to state `m`, and those it unbinds. -/
def entered (m : Nat) : Kind → Nat
  | enter n => if m = n then 1 else 0
  | _ => 0

def left (m : Nat) : Kind → Nat
  | leave o => if o = some m then 1 else 0
  | _ => 0

/-- The same for write handles. -/
def issued (m : Nat) : Kind → Nat
  | issue n => if m = n then 1 else 0
  | _ => 0

def dropped (m : Nat) : Kind → Nat
  | drop o => if o = some m then 1 else 0
  | _ => 0

/-- What it has checked of the states it meets. -/
def Checked (states : List HandleState) : Kind → Prop
  | enter n => ∃ st, states[n]? = some st ∧ st.state ≠ .inUse
  | issue n => ∃ st, states[n]? = some st ∧ st.state = .unset ∧ st.activeReaders = 0
  | _ => True

/-- The state whose write handle it finalises by a call. -/
def ended (r : HandleRun) (m : Nat) : Kind → Bool
  | finalize o => r.ended m || decide (o = some m ∧ 0 < r.world.writers m)
  | _ => r.ended m

end Kind

/-- `handle_state_` may have been made. -/
def Grown (states states' : List HandleState) : Prop := states' = states ∨ states' = states ++ [({} : HandleState)]

/-- From `r` to `r'` the states may have grown by a new one and have then changed by `k`. -/
structure Change (k : Kind) (r r' : HandleRun) : Prop where
  states : ∃ states, Grown r.world.states states ∧ k.Checked states ∧
    ∀ m : Nat, r'.world.states[m]? = (states[m]?).map fun st => k.on m st
  readers (m : Nat) : r'.world.readers m + k.left m = r.world.readers m + k.entered m
  writers (m : Nat) : r'.world.writers m + k.dropped m = r.world.writers m + k.issued m
  issued (m : Nat) : r'.issued m = r.issued m + k.issued m
  ended (m : Nat) : r'.ended m = k.ended r m

section
variable {w w' w₁ : World} {i j l n m : Nat} {s : Buf} {h : ReadHandle} {x : SharedBuffer}

theorem HandleState.leave_enter (st : HandleState) : st.enter.leave = st := rfl

namespace World

theorem handleState_grown (he : w.handleState i s = (w₁, n)) :
    Grown w.states w₁.states ∧ w₁.reads = w.reads ∧ w₁.writes = w.writes := by
  unfold handleState at he
  split at he
  · cases he
    exact ⟨.inl rfl, rfl, rfl⟩
  · cases he
    exact ⟨.inr rfl, rfl, rfl⟩

/-- A read handle is refused and no state has changed, or it is bound to a state that has no writer. -/
theorem getReadHandle_grown {res : Except Exn Nat} (he : w.getReadHandle i = some (w', res)) :
    w'.writes = w.writes ∧ ∃ states, Grown w.states states ∧
      (((∃ e, res = .error e) ∧ w'.states = states ∧ w'.reads = w.reads) ∨
        ∃ n st h, res = .ok w.reads.length ∧ states[n]? = some st ∧ st.state ≠ .inUse ∧
          w'.states = states.set n st.enter ∧ w'.reads = w.reads ++ [some h] ∧ h.state = some n) := by
  unfold getReadHandle at he
  obtain ⟨s, hs, h₁⟩ := Option.bind_eq_some_iff.1 he
  cases hh : w.handleState i s with
  | mk w₁ n =>
    obtain ⟨hgrown, hreads, hwrites⟩ := handleState_grown hh
    rw [hh] at h₁
    obtain ⟨st, hst, h₂⟩ := Option.bind_eq_some_iff.1 h₁
    split at h₂
    · cases h₂
      exact ⟨hwrites, _, hgrown, .inl ⟨⟨_, rfl⟩, rfl, hreads⟩⟩
    · rename_i hu
      cases hm : (w₁.setState n st.enter).makeLease s.shared.control with
      | mk w₂ lease =>
        obtain ⟨pool, rfl⟩ := makeLease_frame hm
        rw [hm] at h₂
        cases lease with
        | error e =>
          cases h₂
          refine ⟨hwrites, w₁.states, hgrown, .inl ⟨⟨e, rfl⟩, ?_, hreads⟩⟩
          show (w₁.states.set n st.enter).set n st.enter.leave = w₁.states
          rw [List.set_set, HandleState.leave_enter]
          obtain ⟨hlt, rfl⟩ := List.getElem?_eq_some_iff.1 hst
          exact List.set_getElem_self hlt
        | ok lease =>
          cases h₂
          refine ⟨hwrites, w₁.states, hgrown, .inr ⟨n, st,
            { dataPtr := s.shared.dataPtr, state := some n, readerLease := lease, owner := s.shared.owner },
            ?_, hst, hu, rfl, ?_, rfl⟩⟩
          · show Except.ok w₁.reads.length = _
            rw [hreads]
          show w₁.reads ++ _ = _
          rw [hreads]

/-- A write handle is refused and no state has changed, or it is bound to a state that was `Unset` and has no
reader. -/
theorem getWriteHandle_grown {res : Except Exn Nat} (he : w.getWriteHandle i = some (w', res)) :
    w'.reads = w.reads ∧ ∃ states, Grown w.states states ∧
      (((∃ e, res = .error e) ∧ w'.states = states ∧ w'.writes = w.writes) ∨
        ∃ n st h, res = .ok w.writes.length ∧ states[n]? = some st ∧ st.state = .unset ∧ st.activeReaders = 0 ∧
          w'.states = states.set n { st with state := .inUse } ∧ w'.writes = w.writes ++ [some h] ∧
          h.state = some n) := by
  unfold getWriteHandle at he
  obtain ⟨s, hs, h₁⟩ := Option.bind_eq_some_iff.1 he
  split at h₁
  · cases h₁
    exact ⟨rfl, w.states, .inl rfl, .inl ⟨⟨_, rfl⟩, rfl, rfl⟩⟩
  split at h₁
  · cases h₁
    exact ⟨rfl, w.states, .inl rfl, .inl ⟨⟨_, rfl⟩, rfl, rfl⟩⟩
  cases hh : w.handleState i s with
  | mk w₁ n =>
    obtain ⟨hgrown, hreads, hwrites⟩ := handleState_grown hh
    rw [hh] at h₁
    obtain ⟨st, hst, h₂⟩ := Option.bind_eq_some_iff.1 h₁
    split at h₂
    · cases h₂
      exact ⟨hreads, _, hgrown, .inl ⟨⟨_, rfl⟩, rfl, hwrites⟩⟩
    · cases h₂
      exact ⟨hreads, _, hgrown, .inl ⟨⟨_, rfl⟩, rfl, hwrites⟩⟩
    · rename_i hu
      split at h₂
      · cases h₂
        exact ⟨hreads, _, hgrown, .inl ⟨⟨_, rfl⟩, rfl, hwrites⟩⟩
      · rename_i hr
        cases h₂
        refine ⟨hreads, w₁.states, hgrown,
          .inr ⟨n, st, { dataPtr := s.shared.dataPtr, state := some n, owner := s.shared.owner },
            by rw [hwrites], hst, hu, not_not.1 hr, rfl, ?_, rfl⟩⟩
        show w₁.writes ++ _ = _
        rw [hwrites]

end World

theorem get_set_map {states : List HandleState} {st : HandleState} (f : HandleState → HandleState)
    (hn : states[n]? = some st) :
    (states.set n (f st))[m]? = (states[m]?).map fun st => if m = n then f st else st := by
  by_cases hm : m = n
  · subst hm
    rw [Tally.get_set_self hn, hn, Option.map_some, if_pos rfl]
  · rw [List.getElem?_set_ne (Ne.symm hm)]
    cases states[m]? with
    | none => rfl
    | some st => rw [Option.map_some, if_neg hm]

/-- Nothing has happened to states and handles. -/
def SameHandles (w w' : World) : Prop := w'.states = w.states ∧ w'.reads = w.reads ∧ w'.writes = w.writes

theorem SameHandles.trans (h : SameHandles w w₁) (h' : SameHandles w₁ w') : SameHandles w w' :=
  ⟨h'.1.trans h.1, h'.2.1.trans h.2.1, h'.2.2.trans h.2.2⟩

namespace World

theorem sameHandles_transfer : SameHandles w (w.transfer i j) := by
  unfold transfer
  split <;> exact ⟨rfl, rfl, rfl⟩

theorem sameHandles_reset : SameHandles w (w.reset i) := by
  unfold reset
  split <;> exact ⟨rfl, rfl, rfl⟩

theorem sameHandles_assign : SameHandles w (w.assign i j) := by
  unfold assign
  split
  · exact ⟨rfl, rfl, rfl⟩
  · exact sameHandles_reset.trans sameHandles_transfer

/-- A released read handle has left its state. -/
theorem releaseRead_leaves (hr : w.read j = some h) : (w.releaseRead j).writes = w.writes ∧
    (w.releaseRead j).reads = w.reads.set j (some {}) ∧
    ∀ m : Nat, (w.releaseRead j).states[m]? =
      (w.states[m]?).map fun st => if h.state = some m then st.leave else st := by
  obtain ⟨states, he, -, hget⟩ := leaveState_eq (w := w) h.state
  unfold releaseRead
  rw [hr]
  dsimp only
  rw [he]
  exact ⟨rfl, rfl, hget⟩

theorem endWrite_finalizes (o : Option Nat) : (w.endWrite o).reads = w.reads ∧
    (w.endWrite o).writes = w.writes ∧
    ∀ m : Nat, (w.endWrite o).states[m]? =
      (w.states[m]?).map fun st => if o = some m then { st with state := .finalized } else st := by
  cases o with
  | none => exact ⟨rfl, rfl, fun m => by simp [endWrite]⟩
  | some n =>
    dsimp only [endWrite]
    cases hn : w.states[n]? with
    | none =>
      refine ⟨rfl, rfl, fun m => ?_⟩
      by_cases hm : n = m
      · subst hm
        simp [hn]
      · simp [hm]
    | some st =>
      refine ⟨rfl, rfl, fun m => ?_⟩
      have hset := get_set_map (m := m) (fun st => { st with state := .finalized }) hn
      simp only [setState, Option.some.injEq, eq_comm (a := n)] at hset ⊢
      exact hset

/-- A released write handle has finalised its state, and still points to it. -/
theorem releaseWrite_finalizes {k : WriteHandle} (hl : w.write l = some k) :
    (w.releaseWrite l).reads = w.reads ∧
    (w.releaseWrite l).writes = w.writes.set l (some { state := k.state }) ∧
    ∀ m : Nat, (w.releaseWrite l).states[m]? =
      (w.states[m]?).map fun st => if k.state = some m then { st with state := .finalized } else st := by
  obtain ⟨hreads, hwrites, hget⟩ := endWrite_finalizes (w := w) k.state
  unfold releaseWrite
  rw [hl]
  refine ⟨hreads, ?_, hget⟩
  show (w.endWrite k.state).writes.set l _ = _
  rw [hwrites]

theorem finalizeWriteHandle_finalizes (x : SharedBuffer) : (w.finalizeWriteHandle x).reads = w.reads ∧
    (w.finalizeWriteHandle x).writes = w.writes ∧
    ∀ m : Nat, (w.finalizeWriteHandle x).states[m]? = (w.states[m]?).map fun st =>
      if x.handleState = some m ∧ st.state = .inUse then { st with state := .finalized } else st := by
  unfold finalizeWriteHandle
  cases hn : x.handleState with
  | none => exact ⟨rfl, rfl, fun m => by simp⟩
  | some n =>
    unfold finalizeState
    dsimp only
    cases hst : w.states[n]? with
    | none =>
      refine ⟨rfl, rfl, fun m => ?_⟩
      by_cases hm : n = m
      · subst hm
        simp [hst]
      · simp [hm]
    | some st =>
      dsimp only
      split
      · rename_i hu
        refine ⟨rfl, rfl, fun m => ?_⟩
        by_cases hm : m = n
        · subst hm
          show (w.states.set m _)[m]? = _
          rw [Tally.get_set_self hst, hst, Option.map_some, if_pos ⟨rfl, hu⟩]
        · show (w.states.set n _)[m]? = _
          rw [List.getElem?_set_ne (Ne.symm hm)]
          simp [Ne.symm hm]
      · rename_i hu
        refine ⟨rfl, rfl, fun m => ?_⟩
        by_cases hm : m = n
        · subst hm
          rw [hst, Option.map_some, if_neg fun h => hu h.2]
        · simp [Ne.symm hm]

end World

end

/-! ### Every call is a change -/

namespace HandleRun
variable {r r' : HandleRun} {op : HandleOp} {w w' : World} {i j l n m : Nat}

/-- The read handles bound to each state, from the list of all. -/
theorem readers_eq (h : w'.reads = w.reads) (m : Nat) : w'.readers m = w.readers m := by
  rw [World.readers, World.readers, h]

theorem writers_eq (h : w'.writes = w.writes) (m : Nat) : w'.writers m = w.writers m := by
  rw [World.writers, World.writers, h]

theorem change_quiet (h : SameHandles r.world w) : Change .quiet r (r.withWorld w) where
  states := ⟨r.world.states, .inl rfl, trivial, fun m => by
    show w.states[m]? = _
    rw [h.1]
    exact Option.map_id'.symm⟩
  readers := readers_eq h.2.1
  writers := writers_eq h.2.2
  issued _ := rfl
  ended _ := rfl

theorem change_getReadHandle {p : World × Except Exn Nat} (he : r.world.getReadHandle i = some p) :
    ∃ k, Change k r (r.withWorld p.1) := by
  obtain ⟨w, res⟩ := p
  obtain ⟨hwrites, states, hgrown, ⟨-, hstates, hreads⟩ | ⟨n, st, h, -, hst, hne, hstates, hreads, hn⟩⟩ :=
    World.getReadHandle_grown he
  · refine ⟨.quiet, ⟨states, hgrown, trivial, fun m => ?_⟩, readers_eq hreads, writers_eq hwrites,
      fun _ => rfl, fun _ => rfl⟩
    show w.states[m]? = _
    rw [hstates]
    exact Option.map_id'.symm
  · refine ⟨.enter n, ⟨states, hgrown, ⟨st, hst, hne⟩, fun m => ?_⟩, fun m => ?_, writers_eq hwrites,
      fun _ => rfl, fun _ => rfl⟩
    · show w.states[m]? = _
      rw [hstates]
      exact get_set_map HandleState.enter hst
    · show w.readers m + 0 = r.world.readers m + if m = n then 1 else 0
      simp only [World.readers, hreads, total_append, points, hn, Option.some.injEq, eq_comm (a := n)]
      rfl

theorem change_getWriteHandle {res : Except Exn Nat} (he : r.world.getWriteHandle i = some (w, res)) :
    (∃ e, res = .error e) ∧ Change .quiet r (r.withWorld w) ∨
      ∃ n l h, res = .ok l ∧ w.write l = some h ∧ h.state = some n ∧
        Change (.issue n) r ((r.withWorld w).issue n) := by
  obtain ⟨hreads, states, hgrown, ⟨herr, hstates, hwrites⟩ |
    ⟨n, st, h, hres, hst, hu, h0, hstates, hwrites, hn⟩⟩ := World.getWriteHandle_grown he
  · refine .inl ⟨herr, ⟨states, hgrown, trivial, fun m => ?_⟩, readers_eq hreads, writers_eq hwrites,
      fun _ => rfl, fun _ => rfl⟩
    show w.states[m]? = _
    rw [hstates]
    exact Option.map_id'.symm
  · refine .inr ⟨n, _, h, hres, ?_, hn, ⟨states, hgrown, ⟨st, hst, hu, h0⟩, fun m => ?_⟩, readers_eq hreads,
      fun m => ?_, fun m => ?_, fun _ => rfl⟩
    · rw [World.write, hwrites]
      exact get_append.trans (if_pos rfl)
    · show w.states[m]? = _
      rw [hstates]
      exact get_set_map (fun st => { st with state := .inUse }) hst
    · show w.writers m + 0 = r.world.writers m + if m = n then 1 else 0
      simp only [World.writers, hwrites, total_append, points, hn, Option.some.injEq, eq_comm (a := n)]
      rfl
    · show Function.update r.issued n (r.issued n + 1) m = r.issued m + if m = n then 1 else 0
      by_cases hm : m = n
      · subst hm
        rw [Function.update_self, if_pos rfl]
      · rw [Function.update_of_ne hm, if_neg hm]
        rfl

theorem change_finalize (x : SharedBuffer) :
    Change (.finalize x.handleState) r ((r.finalize x.handleState).withWorld (r.world.finalizeWriteHandle x)) := by
  obtain ⟨hreads, hwrites, hget⟩ := World.finalizeWriteHandle_finalizes (w := r.world) x
  refine ⟨⟨r.world.states, .inl rfl, trivial, hget⟩, readers_eq hreads, writers_eq hwrites, fun m => ?_,
    fun m => ?_⟩
  · show (r.finalize x.handleState).issued m = r.issued m
    cases x.handleState <;> rfl
  · show (r.finalize x.handleState).ended m = (r.ended m || decide (x.handleState = some m ∧ 0 < r.world.writers m))
    cases x.handleState with
    | none => simp [finalize]
    | some n =>
      show Function.update r.ended n _ m = _
      by_cases hm : m = n
      · subst hm
        rw [Function.update_self]
        simp
      · rw [Function.update_of_ne hm]
        simp [Ne.symm hm]

/-- A read handle is released and its slot overwritten by handles that were there before. -/
theorem change_leave {h : ReadHandle} (hwrites : w.writes = r.world.writes)
    (hget : ∀ m : Nat, w.states[m]? = (r.world.states[m]?).map fun st => if h.state = some m then st.leave else st)
    (hreads : ∀ m, w.readers m + points (·.state) m h = r.world.readers m) :
    Change (.leave h.state) r (r.withWorld w) :=
  ⟨⟨r.world.states, .inl rfl, trivial, hget⟩, hreads, writers_eq hwrites, fun _ => rfl, fun _ => rfl⟩

theorem change_drop {h : WriteHandle} (hreads : w.reads = r.world.reads)
    (hget : ∀ m : Nat, w.states[m]? =
      (r.world.states[m]?).map fun st => if h.state = some m then { st with state := .finalized } else st)
    (hwrites : ∀ m, w.writers m + points (·.state) m h = r.world.writers m) :
    Change (.drop h.state) r (r.withWorld w) :=
  ⟨⟨r.world.states, .inl rfl, trivial, hget⟩, readers_eq hreads, hwrites, fun _ => rfl, fun _ => rfl⟩

/-- A move from slot `j` to an emptied slot `i` keeps the weight of the handles. -/
theorem total_move {α : Type} {f : α → Nat} {list : List (Option α)} {blank x y : α} (hblank : f blank = 0)
    (hi : Slots.get list i = some x) (hx : f x = 0) (hj : Slots.get list j = some y) (hij : i ≠ j) :
    total f ((list.set i (some y)).set j (some blank)) = total f list := by
  have hj' : Slots.get (list.set i (some y)) j = some y := by rw [get_set hi, if_neg (Ne.symm hij), hj]
  have h1 := total_set (f := f) hi (some y)
  have h2 := total_set (f := f) hj' (some blank)
  simp only [Option.elim_some, hblank] at h1 h2
  omega

/-- The same onto a slot whose handle has been released first. -/
theorem total_replace {α : Type} {f : α → Nat} {list : List (Option α)} {blank blank' x y : α}
    (hblank : f blank = 0) (hi : Slots.get list i = some x) (hj : Slots.get list j = some y) (hij : i ≠ j) :
    total f (((list.set i (some blank')).set i (some y)).set j (some blank)) + f x = total f list := by
  have hj' : Slots.get (list.set i (some y)) j = some y := by rw [get_set hi, if_neg (Ne.symm hij), hj]
  have h1 := total_set (f := f) hi (some y)
  have h2 := total_set (f := f) hj' (some blank)
  rw [List.set_set]
  simp only [Option.elim_some, hblank] at h1 h2
  omega

theorem total_destroy {α : Type} {f : α → Nat} {list : List (Option α)} {blank x : α}
    (hi : Slots.get list i = some x) :
    total f ((list.set i (some blank)).set i none) + f x = total f list := by
  have h1 := total_set (f := f) hi none
  rw [List.set_set]
  simpa using h1

theorem total_moveTo {α : Type} {f : α → Nat} {list : List (Option α)} {blank y : α} (hblank : f blank = 0)
    (hj : Slots.get list j = some y) :
    total f (((list ++ [some blank]).set list.length (some y)).set j (some blank)) = total f list := by
  have hlt := lt_length hj
  have hnew : Slots.get (list ++ [some blank]) list.length = some blank := by rw [get_append, if_pos rfl]
  have hold : Slots.get (list ++ [some blank]) j = some y := by rw [get_append, if_neg (Nat.ne_of_lt hlt), hj]
  rw [total_move hblank hnew hblank hold (Nat.ne_of_gt hlt), total_append, hblank]
  rfl

/-- Each call is a change of one kind. -/
theorem step_change (hs : step r op = some r') : ∃ k, Change k r r' := by
  have hpoints : ∀ m, points (·.state) m ({} : ReadHandle) = 0 := fun m => rfl
  have hpoints' : ∀ m, points (·.state) m ({} : WriteHandle) = 0 := fun m => rfl
  cases op with
  | construct payload deleter args =>
    simp only [step] at hs
    split at hs
    · cases hs
      exact ⟨.quiet, change_quiet ⟨rfl, rfl, rfl⟩⟩
    · cases hs
      exact ⟨.quiet, change_quiet ⟨rfl, rfl, rfl⟩⟩
  | moveBuf j =>
    obtain ⟨y, -, hs⟩ := Option.bind_eq_some_iff.1 hs
    cases hs
    exact ⟨.quiet, change_quiet (World.sameHandles_transfer (w := r.world.addBuf _))⟩
  | assignBuf i j =>
    obtain ⟨x, -, hs⟩ := Option.bind_eq_some_iff.1 hs
    obtain ⟨y, -, hs⟩ := Option.bind_eq_some_iff.1 hs
    cases hs
    exact ⟨.quiet, change_quiet World.sameHandles_assign⟩
  | destroyBuf i =>
    obtain ⟨x, -, hs⟩ := Option.bind_eq_some_iff.1 hs
    cases hs
    exact ⟨.quiet, change_quiet (w := r.world.destroyBuf i) (World.sameHandles_reset (i := i))⟩
  | getReadHandle i =>
    obtain ⟨p, hp, hs⟩ := Option.bind_eq_some_iff.1 hs
    cases hs
    exact change_getReadHandle hp
  | getWriteHandle i =>
    obtain ⟨⟨w, res⟩, hp, hs⟩ := Option.bind_eq_some_iff.1 hs
    rcases change_getWriteHandle hp with ⟨⟨e, rfl⟩, hc⟩ | ⟨n, l, h, rfl, hl, hn, hc⟩
    · cases hs
      exact ⟨_, hc⟩
    · obtain ⟨n', hn', hs⟩ := Option.bind_eq_some_iff.1 hs
      rw [hl, Option.bind_eq_bind, Option.bind_some, hn] at hn'
      cases hn'
      cases hs
      exact ⟨_, hc⟩
  | finalizeWriteHandle i =>
    obtain ⟨s, -, hs⟩ := Option.bind_eq_some_iff.1 hs
    cases hs
    exact ⟨_, change_finalize s.shared⟩
  | moveRead j =>
    obtain ⟨h, hj, hs⟩ := Option.bind_eq_some_iff.1 hs
    cases hs
    have hj' : (r.world.addRead {}).read j = some h :=
      get_append.trans ((if_neg (Nat.ne_of_lt (lt_length hj))).trans hj)
    refine ⟨.quiet, ⟨r.world.states, .inl rfl, trivial, fun m => ?_⟩, fun m => ?_, fun m => ?_, fun _ => rfl,
      fun _ => rfl⟩
    all_goals simp only [withWorld, World.transferRead, hj']
    · exact Option.map_id'.symm
    · exact total_moveTo (hpoints m) hj
    · rfl
  | assignRead i j =>
    obtain ⟨h, hi, hs⟩ := Option.bind_eq_some_iff.1 hs
    obtain ⟨t, hj, hs⟩ := Option.bind_eq_some_iff.1 hs
    cases hs
    split
    · exact ⟨.quiet, change_quiet ⟨rfl, rfl, rfl⟩⟩
    · rename_i hij
      obtain ⟨hwrites, hreads, hget⟩ := World.releaseRead_leaves hi
      have hj' : (r.world.releaseRead i).read j = some t := by
        rw [World.read, hreads]
        exact (get_set hi).trans ((if_neg (Ne.symm hij)).trans hj)
      refine ⟨_, change_leave (h := h) ?_ ?_ fun m => ?_⟩
      all_goals simp only [World.transferRead, hj']
      · exact hwrites
      · exact hget
      · show total _ (((r.world.releaseRead i).reads.set i (some t)).set j (some {})) + _ = _
        rw [hreads]
        exact total_replace (hpoints m) hi hj hij
  | destroyRead j =>
    obtain ⟨h, hj, hs⟩ := Option.bind_eq_some_iff.1 hs
    cases hs
    obtain ⟨hwrites, hreads, hget⟩ := World.releaseRead_leaves hj
    refine ⟨_, change_leave (h := h) hwrites hget fun m => ?_⟩
    show total _ ((r.world.releaseRead j).reads.set j none) + _ = _
    rw [hreads]
    exact total_destroy hj
  | moveWrite j =>
    obtain ⟨h, hj, hs⟩ := Option.bind_eq_some_iff.1 hs
    cases hs
    have hj' : (r.world.addWrite {}).write j = some h :=
      get_append.trans ((if_neg (Nat.ne_of_lt (lt_length hj))).trans hj)
    refine ⟨.quiet, ⟨r.world.states, .inl rfl, trivial, fun m => ?_⟩, fun m => ?_, fun m => ?_, fun _ => rfl,
      fun _ => rfl⟩
    all_goals simp only [withWorld, World.transferWrite, hj']
    · exact Option.map_id'.symm
    · rfl
    · exact total_moveTo (hpoints' m) hj
  | assignWrite i j =>
    obtain ⟨h, hi, hs⟩ := Option.bind_eq_some_iff.1 hs
    obtain ⟨t, hj, hs⟩ := Option.bind_eq_some_iff.1 hs
    cases hs
    split
    · exact ⟨.quiet, change_quiet ⟨rfl, rfl, rfl⟩⟩
    · rename_i hij
      obtain ⟨hreads, hwrites, hget⟩ := World.releaseWrite_finalizes hi
      have hj' : (r.world.releaseWrite i).write j = some t := by
        rw [World.write, hwrites]
        exact (get_set hi).trans ((if_neg (Ne.symm hij)).trans hj)
      refine ⟨_, change_drop (h := h) ?_ ?_ fun m => ?_⟩
      all_goals simp only [World.transferWrite, hj']
      · exact hreads
      · exact hget
      · show total _ (((r.world.releaseWrite i).writes.set i (some t)).set j (some {})) + _ = _
        rw [hwrites]
        exact total_replace (hpoints' m) hi hj hij
  | destroyWrite j =>
    obtain ⟨h, hj, hs⟩ := Option.bind_eq_some_iff.1 hs
    cases hs
    obtain ⟨hreads, hwrites, hget⟩ := World.releaseWrite_finalizes hj
    refine ⟨_, change_drop (h := h) hreads hget fun m => ?_⟩
    show total _ ((r.world.releaseWrite j).writes.set j none) + _ = _
    rw [hwrites]
    exact total_destroy hj
  | memory pool =>
    cases hs
    exact ⟨.quiet, change_quiet ⟨rfl, rfl, rfl⟩⟩

end HandleRun

/-! ### The law of one state -/

/-- A state with its read handles, its live write handles, the write handles issued for it, and whether its
write handle was finalised by a call. -/
structure Phase (st : HandleState) (readers writers issued : Nat) (ended : Bool) : Prop where
  counted : st.activeReaders = readers
  unset : st.state = .unset → issued = 0 ∧ writers = 0 ∧ ended = false
  inUse : st.state = .inUse → issued = 1 ∧ writers = 1 ∧ ended = false ∧ readers = 0
  finalized : st.state = .finalized → issued = 1 ∧ writers ≤ 1 ∧ (writers = 1 → ended = true)

/-- The state has been left as it was, or has moved one step on. -/
def Moved (st st' : HandleState) : Prop :=
  st'.state = st.state ∨ st.state = .unset ∧ st'.state = .inUse ∨ st.state = .inUse ∧ st'.state = .finalized

namespace Phase
variable {st : HandleState} {readers writers issued readers' writers' : Nat} {ended : Bool}

theorem new : Phase {} 0 0 0 false :=
  ⟨rfl, fun _ => ⟨rfl, rfl, rfl⟩, (by intro h; cases h), (by intro h; cases h)⟩

theorem issued_le (h : Phase st readers writers issued ended) : issued ≤ 1 := by
  cases hs : st.state with
  | unset => have := h.unset hs; omega
  | inUse => have := h.inUse hs; omega
  | finalized => have := h.finalized hs; omega

theorem enter (h : Phase st readers writers issued ended) (hne : st.state ≠ .inUse) :
    Phase st.enter (readers + 1) writers issued ended :=
  ⟨congrArg (· + 1) h.counted, h.unset, fun hu => absurd hu hne, h.finalized⟩

theorem leave (h : Phase st (readers + 1) writers issued ended) : Phase st.leave readers writers issued ended := by
  refine ⟨?_, h.unset, fun hu => ?_, h.finalized⟩
  · show st.activeReaders - 1 = readers
    rw [h.counted]
    rfl
  · have := h.inUse hu
    omega

theorem issue (h : Phase st readers writers issued ended) (hu : st.state = .unset) (h0 : st.activeReaders = 0) :
    Phase { st with state := .inUse } readers (writers + 1) (issued + 1) ended := by
  obtain ⟨h1, h2, h3⟩ := h.unset hu
  refine ⟨h.counted, (by intro h; cases h), fun _ => ?_, (by intro h; cases h)⟩
  exact ⟨by omega, by omega, h3, h.counted.symm.trans h0⟩

theorem drop (h : Phase st readers (writers + 1) issued ended) :
    Phase { st with state := .finalized } readers writers issued ended := by
  refine ⟨h.counted, (by intro h; cases h), (by intro h; cases h), fun _ => ?_⟩
  cases hs : st.state with
  | unset => have := h.unset hs; omega
  | inUse => have := h.inUse hs; exact ⟨this.1, by omega, by omega⟩
  | finalized => have := h.finalized hs; exact ⟨this.1, by omega, by omega⟩

theorem finalize (h : Phase st readers writers issued ended) :
    Phase (if st.state = .inUse then { st with state := .finalized } else st) readers writers issued
      (ended || decide (0 < writers)) := by
  split
  · rename_i hu
    obtain ⟨h1, h2, -⟩ := h.inUse hu
    exact ⟨h.counted, (by intro h; cases h), (by intro h; cases h), fun _ => ⟨h1, by omega, fun _ => by simp [h2]⟩⟩
  · rename_i hu
    refine ⟨h.counted, fun hs => ?_, fun hs => absurd hs hu, fun hs => ?_⟩
    · obtain ⟨h1, h2, h3⟩ := h.unset hs
      exact ⟨h1, h2, by simp [h2, h3]⟩
    · obtain ⟨h1, h2, h3⟩ := h.finalized hs
      exact ⟨h1, h2, fun hw => by simp [h3 hw]⟩

end Phase

namespace HandleRun
variable {r r' : HandleRun} {op : HandleOp} {k : Kind} {n m : Nat} {st : HandleState} {states : List HandleState}

structure Inv (r : HandleRun) : Prop where
  phase {n : Nat} {st : HandleState} : r.world.states[n]? = some st →
    Phase st (r.world.readers n) (r.world.writers n) (r.issued n) (r.ended n)
  fresh {n : Nat} : r.world.states.length ≤ n →
    r.world.readers n = 0 ∧ r.world.writers n = 0 ∧ r.issued n = 0 ∧ r.ended n = false

/-- The same for the states after one of them may have been made. -/
theorem Inv.grown (h : Inv r) (hg : Grown r.world.states states) :
    (∀ {n st}, states[n]? = some st →
      Phase st (r.world.readers n) (r.world.writers n) (r.issued n) (r.ended n)) ∧
    r.world.states.length ≤ states.length := by
  rcases hg with rfl | rfl
  · exact ⟨h.phase, le_rfl⟩
  · refine ⟨fun hn => ?_, by simp⟩
    rcases Tally.get_append_cases hn with hn | ⟨rfl, rfl⟩
    · exact h.phase hn
    · obtain ⟨h1, h2, h3, h4⟩ := h.fresh le_rfl
      rw [h1, h2, h3, h4]
      exact .new

theorem phase_change (hr : r'.world.readers m + k.left m = r.world.readers m + k.entered m)
    (hw : r'.world.writers m + k.dropped m = r.world.writers m + k.issued m)
    (hi : r'.issued m = r.issued m + k.issued m) (he : r'.ended m = k.ended r m) (hc : k.Checked states)
    (hm : states[m]? = some st)
    (h : Phase st (r.world.readers m) (r.world.writers m) (r.issued m) (r.ended m)) :
    Phase (k.on m st) (r'.world.readers m) (r'.world.writers m) (r'.issued m) (r'.ended m) := by
  rw [hi, he]
  cases k with
  | quiet =>
    rw [show r'.world.readers m = r.world.readers m from hr, show r'.world.writers m = r.world.writers m from hw]
    exact h
  | enter n =>
    rw [show r'.world.readers m = r.world.readers m + _ from hr, show r'.world.writers m = r.world.writers m from hw]
    obtain ⟨st', hst', hne⟩ := hc
    simp only [Kind.on, Kind.entered]
    split
    · rename_i hmn
      rw [hmn, hst'] at hm
      cases hm
      exact h.enter hne
    · exact h
  | leave o =>
    simp only [Kind.left, Kind.entered, Kind.on] at hr ⊢
    rw [show r'.world.writers m = r.world.writers m from hw]
    split
    · rename_i hom
      rw [if_pos hom] at hr
      rw [show r.world.readers m = r'.world.readers m + 1 from hr.symm] at h
      exact h.leave
    · rename_i hom
      rw [if_neg hom] at hr
      rw [show r'.world.readers m = r.world.readers m from hr]
      exact h
  | issue n =>
    rw [show r'.world.readers m = r.world.readers m from hr, show r'.world.writers m = r.world.writers m + _ from hw]
    obtain ⟨st', hst', hu, h0⟩ := hc
    simp only [Kind.on, Kind.issued]
    split
    · rename_i hmn
      rw [hmn, hst'] at hm
      cases hm
      exact h.issue hu h0
    · exact h
  | finalize o =>
    rw [show r'.world.readers m = r.world.readers m from hr, show r'.world.writers m = r.world.writers m from hw]
    simp only [Kind.on, Kind.ended]
    by_cases hom : o = some m
    · simp only [hom, true_and]
      exact h.finalize
    · simp only [hom, false_and, decide_false, Bool.or_false, if_false]
      exact h
  | drop o =>
    simp only [Kind.dropped, Kind.issued, Kind.on] at hw ⊢
    rw [show r'.world.readers m = r.world.readers m from hr]
    split
    · rename_i hom
      rw [if_pos hom] at hw
      rw [show r.world.writers m = r'.world.writers m + 1 from hw.symm] at h
      exact h.drop
    · rename_i hom
      rw [if_neg hom] at hw
      rw [show r'.world.writers m = r.world.writers m from hw]
      exact h

theorem Inv.change (h : Inv r) (hc : Change k r r') : Inv r' := by
  obtain ⟨states, hg, hchecked, hget⟩ := hc.states
  obtain ⟨hphase, hlen⟩ := h.grown hg
  have hlen' : r'.world.states.length = states.length := by
    refine le_antisymm ?_ ?_
    · by_contra hlt
      have hget' := hget states.length
      rw [List.getElem?_eq_getElem (by omega), List.getElem?_eq_none le_rfl] at hget'
      cases hget'
    · by_contra hlt
      have hget' := hget r'.world.states.length
      rw [List.getElem?_eq_none le_rfl, List.getElem?_eq_getElem (by omega)] at hget'
      cases hget'
  refine ⟨fun {m st'} hm => ?_, fun {m} hm => ?_⟩
  · rw [hget, Option.map_eq_some_iff] at hm
    obtain ⟨st, hm, rfl⟩ := hm
    exact phase_change (hc.readers m) (hc.writers m) (hc.issued m) (hc.ended m) hchecked hm (hphase hm)
  · obtain ⟨h1, h2, h3, h4⟩ := h.fresh (show r.world.states.length ≤ m by omega)
    have hr := hc.readers m
    have hw := hc.writers m
    have hi := hc.issued m
    have he := hc.ended m
    have hunset : ∀ n st, states[n]? = some st → m ≠ n := fun n st hn hmn => by
      have := (List.getElem?_eq_some_iff.1 hn).1
      omega
    rw [h1] at hr
    rw [h2] at hw
    rw [h3] at hi
    cases k with
    | quiet => exact ⟨hr, hw, hi, he.trans h4⟩
    | enter n =>
      obtain ⟨st, hst, -⟩ := hchecked
      rw [Kind.entered, if_neg (hunset n st hst)] at hr
      exact ⟨hr, hw, hi, he.trans h4⟩
    | leave o => exact ⟨by simp only [Kind.entered] at hr; omega, hw, hi, he.trans h4⟩
    | issue n =>
      obtain ⟨st, hst, -⟩ := hchecked
      rw [Kind.issued, if_neg (hunset n st hst)] at hw hi
      exact ⟨hr, hw, hi, he.trans h4⟩
    | finalize o =>
      refine ⟨hr, hw, hi, he.trans ?_⟩
      simp [Kind.ended, h2, h4]
    | drop o => exact ⟨hr, by simp only [Kind.issued] at hw; omega, hi, he.trans h4⟩

theorem Reachable.inv (h : Reachable r) : Inv r := by
  refine Machine.ReachIf.inv (P := Inv) ?_ (fun _ _ _ hi _ hs => ?_) h
  · rintro r rfl
    exact ⟨fun hn => by simp at hn, fun _ => ⟨rfl, rfl, rfl, rfl⟩⟩
  · obtain ⟨k, hc⟩ := step_change hs
    exact hi.change hc

/-- No call takes a state back, or from `Unset` past `InUse`. -/
theorem Inv.moved (h : Inv r) (hs : step r op = some r') (hn : r.world.states[n]? = some st) :
    ∃ st', r'.world.states[n]? = some st' ∧ Moved st st' := by
  obtain ⟨k, hc⟩ := step_change hs
  obtain ⟨states, hg, hchecked, hget⟩ := hc.states
  have hn' : states[n]? = some st := by
    rcases hg with rfl | rfl
    · exact hn
    · exact Tally.get_of_initial (List.prefix_append ..) hn
  refine ⟨k.on n st, by rw [hget, hn', Option.map_some], ?_⟩
  cases k with
  | quiet => exact .inl rfl
  | enter m =>
    simp only [Kind.on]
    split <;> exact .inl rfl
  | leave o =>
    simp only [Kind.on]
    split <;> exact .inl rfl
  | issue m =>
    simp only [Kind.on]
    split
    · rename_i hnm
      obtain ⟨st', hst', hu, -⟩ := hchecked
      rw [← hnm, hn'] at hst'
      cases hst'
      exact .inr (.inl ⟨hu, rfl⟩)
    · exact .inl rfl
  | finalize o =>
    simp only [Kind.on]
    split
    · rename_i hu
      exact .inr (.inr ⟨hu.2, rfl⟩)
    · exact .inl rfl
  | drop o =>
    simp only [Kind.on]
    split
    · rename_i hon
      have hw := hc.writers n
      simp only [Kind.dropped, if_pos hon, Kind.issued, Nat.add_zero] at hw
      have hphase := h.phase hn
      cases hst : st.state with
      | unset =>
        have := hphase.unset hst
        omega
      | inUse => exact .inr (.inr ⟨hst, rfl⟩)
      | finalized => exact .inl hst.symm
    · exact .inl rfl

theorem unfinalised_eq (r : HandleRun) (n : Nat) :
    r.unfinalised n = if r.ended n then 0 else r.world.writers n := by
  unfold unfinalised World.writers
  cases r.ended n with
  | true =>
    refine total_eq_zero fun i x _ => if_neg fun h => ?_
    cases h.2
  | false =>
    simp only [and_true]
    rfl

/-- A handle that is refused leaves every state as it was. -/
theorem refused_unchanged {w w' : World} {i : Nat} {e : Exn}
    (he : w.getReadHandle i = some (w', .error e) ∨ w.getWriteHandle i = some (w', .error e))
    (hn : w.states[n]? = some st) : w'.states[n]? = some st := by
  have hgrown : Grown w.states w'.states := by
    rcases he with he | he
    · obtain ⟨-, states, hg, ⟨-, hstates, -⟩ | ⟨_, _, _, hres, _⟩⟩ := World.getReadHandle_grown he
      · rw [hstates]
        exact hg
      · cases hres
    · obtain ⟨-, states, hg, ⟨-, hstates, -⟩ | ⟨_, _, _, hres, _⟩⟩ := World.getWriteHandle_grown he
      · rw [hstates]
        exact hg
      · cases hres
  rcases hgrown with hg | hg
  · rw [hg]
    exact hn
  · rw [hg]
    exact Tally.get_of_initial (List.prefix_append ..) hn

/-- The state machine of a `HandleState`: its reader count is that of the handles bound to it and never has to
be guarded, `InUse` is one write handle not yet finalised and no reader, states only move on, one write handle
is issued at most, and a refused handle changes nothing. -/
theorem handle_state_machine (h : Reachable r) :
    (∀ (n : Nat) st, r.world.states[n]? = some st →
      st.activeReaders = r.world.readers n ∧ (st.state = .inUse ↔ r.unfinalised n = 1) ∧
        (st.state = .inUse → st.activeReaders = 0) ∧ r.issued n ≤ 1) ∧
    (∀ j x n, r.world.read j = some x → x.state = some n →
      ∃ st, r.world.states[n]? = some st ∧ 0 < st.activeReaders) ∧
    (∀ op r', step r op = some r' → ∀ (n : Nat) st, r.world.states[n]? = some st →
      ∃ st', r'.world.states[n]? = some st' ∧ Moved st st') ∧
    ∀ i w' e, r.world.getReadHandle i = some (w', .error e) ∨ r.world.getWriteHandle i = some (w', .error e) →
      ∀ (n : Nat) st, r.world.states[n]? = some st → w'.states[n]? = some st := by
  have hi := h.inv
  refine ⟨fun n st hn => ?_, fun j x n hj hx => ?_, fun op r' hs n st hn => hi.moved hs hn,
    fun i w' e he n st hn => refused_unchanged he hn⟩
  · have hphase := hi.phase hn
    refine ⟨hphase.counted, ?_, fun hu => ?_, hphase.issued_le⟩
    · rw [unfinalised_eq]
      constructor
      · intro hu
        obtain ⟨-, h2, h3, -⟩ := hphase.inUse hu
        rw [h3, h2]
        rfl
      · intro h1
        split at h1
        · cases h1
        · rename_i hended
          cases hst : st.state with
          | unset =>
            have := hphase.unset hst
            omega
          | inUse => rfl
          | finalized => exact absurd ((hphase.finalized hst).2.2 h1) hended
    · obtain ⟨-, -, -, h4⟩ := hphase.inUse hu
      exact hphase.counted.trans h4
  · have hpos : 1 ≤ r.world.readers n := by
      have hle := le_total (f := points (·.state) n) (show Slots.get r.world.reads j = some x from hj)
      rw [points_eq_one hx] at hle
      exact hle
    rcases Nat.lt_or_ge n r.world.states.length with hlt | hge
    · refine ⟨_, List.getElem?_eq_getElem hlt, ?_⟩
      rw [(hi.phase (List.getElem?_eq_getElem hlt)).counted]
      exact hpos
    · have := (hi.fresh hge).1
      omega

/-- Two readers come and go around a writer whose buffer is moved away and finalised under it; a lease is
refused on the way. -/
def rounds : List HandleOp :=
  [.construct (some 0) .empty { size := 4, control := some 0 }, .getReadHandle 0,
    .memory (Pool.createBlock {} 4 (.ok 3)).1,
    .getReadHandle 0, .getReadHandle 0, .moveRead 0, .assignRead 1 2, .destroyRead 1, .getWriteHandle 0, .moveBuf 0,
    .getReadHandle 1, .moveWrite 0, .finalizeWriteHandle 1, .getWriteHandle 1, .destroyWrite 1, .getReadHandle 1]

def roundsEnd : HandleRun := (Machine.run step {} rounds).getD {}

theorem roundsEnd_reachable : Reachable roundsEnd :=
  Machine.Reach.run (.start rfl) (show Machine.run step {} rounds = some roundsEnd from rfl)

theorem handle_state_machine_rounds : roundsEnd.world.states = [⟨.finalized, 1⟩] ∧ roundsEnd.issued 0 = 1 ∧
    roundsEnd.world.readers 0 = 1 ∧ roundsEnd.issued 0 ≤ 1 :=
  ⟨by decide, by decide, by decide, ((handle_state_machine roundsEnd_reachable).1 0 ⟨.finalized, 1⟩ rfl).2.2.2⟩

end HandleRun

end MemfdBuffer.Proc
