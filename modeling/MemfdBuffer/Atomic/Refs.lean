import MemfdBuffer.Atomic.Cases
import MemfdBuffer.Lib.Tally

/-!
# The live references to a block

`due f` weighs, by `f`, the effects that the objects and the calls under way still owe: what tearing
down each buffer and handle would do, what is left of the teardowns under way, and the release that
an import owes between its acquire and the end of its UID check. `refs w b` counts the releases of
readers of `b` among them, `owners w b` the returns of `b` to its pool.
-/

namespace MemfdBuffer

open Tally

/-- One reader of `b` is given back. -/
def Effect.reader (b : Nat) : Effect → Nat
  | .releaseReader c => if c = b then 1 else 0
  | _ => 0

/-- `b` is returned to its pool. -/
def Effect.owner (b : Nat) : Effect → Nat
  | .poolFree c => if c = b then 1 else 0
  | _ => 0

namespace Atomic

def bufDue (f : Effect → Nat) : Option BufSlot → Nat
  | some s => tally f s.buf.resetEffects
  | none => 0

def readDue (f : Effect → Nat) : Option ReadSlot → Nat
  | some s => tally f s.handle.releaseEffects
  | none => 0

def Task.due (f : Effect → Nat) : Task → Nat
  | .recheck b _ _ | .undo b => f (.releaseReader b)
  | .teardown es _ => tally f es
  | _ => 0

namespace World
variable (w : World)

/-- The effects due, weighed by `f`. -/
def due (f : Effect → Nat) : Nat :=
  tally (bufDue f) w.bufs + tally (readDue f) w.reads + tally (Task.due f) w.tasks

def refs (b : Nat) : Nat := w.due (Effect.reader b)

def owners (b : Nat) : Nat := w.due (Effect.owner b)

section
variable {w} {f : Effect → Nat}

@[simp] theorem due_setBlock (b : Nat) (blk : PhysBlock) : (w.setBlock b blk).due f = w.due f := rfl

@[simp] theorem due_addBlock (blk : PhysBlock) : (w.addBlock blk).due f = w.due f := rfl

@[simp] theorem due_setPool (p : Nat) (pc : AllocPc) : (w.setPool p pc).due f = w.due f := rfl

@[simp] theorem due_addDesc (r : DescRec) : (w.addDesc r).due f = w.due f := rfl

@[simp] theorem due_addSeen (x : Nat × Nat × UInt8) : (w.addSeen x).due f = w.due f := rfl

@[simp] theorem due_addBuf (s : BufSlot) :
    (w.addBuf s).due f = w.due f + tally f s.buf.resetEffects := by
  simp only [due, addBuf, tally_append, tally_cons, tally_nil, bufDue]; omega

@[simp] theorem due_addRead (s : ReadSlot) :
    (w.addRead s).due f = w.due f + tally f s.handle.releaseEffects := by
  simp only [due, addRead, tally_append, tally_cons, tally_nil, readDue]; omega

@[simp] theorem due_addTask (k : Task) : (w.addTask k).due f = w.due f + k.due f := by
  simp only [due, addTask, tally_append, tally_cons, tally_nil]; omega

theorem due_setBuf {i : Nat} {o : Option BufSlot} (h : w.bufs[i]? = some o) (o' : Option BufSlot) :
    (w.setBuf i o').due f + bufDue f o = w.due f + bufDue f o' := by
  have := tally_set (f := bufDue f) h o'
  simp only [due, setBuf]; omega

theorem due_setRead {i : Nat} {o : Option ReadSlot} (h : w.reads[i]? = some o) (o' : Option ReadSlot) :
    (w.setRead i o').due f + readDue f o = w.due f + readDue f o' := by
  have := tally_set (f := readDue f) h o'
  simp only [due, setRead]; omega

theorem due_setTask {t : Nat} {k : Task} (h : w.tasks[t]? = some k) (k' : Task) :
    (w.setTask t k').due f + k.due f = w.due f + k'.due f := by
  have := tally_set (f := Task.due f) h k'
  simp only [due, setTask]; omega

theorem le_due_of_buf {i : Nat} {s : BufSlot} (h : w.holdsBuf i s) :
    tally f s.buf.resetEffects ≤ w.due f := by
  have := le_tally (f := bufDue f) h
  simp only [bufDue] at this
  simp only [due]; omega

theorem le_due_of_read {i : Nat} {s : ReadSlot} (h : w.reads[i]? = some (some s)) :
    tally f s.handle.releaseEffects ≤ w.due f := by
  have := le_tally (f := readDue f) h
  simp only [readDue] at this
  simp only [due]; omega

theorem le_due_of_task {t : Nat} {k : Task} (h : w.tasks[t]? = some k) : k.due f ≤ w.due f := by
  have := le_tally (f := Task.due f) h
  simp only [due]; omega

end

end World

@[simp] theorem Effect.reader_releaseReader (b c : Nat) :
    Effect.reader b (.releaseReader c) = if c = b then 1 else 0 := rfl

@[simp] theorem Effect.reader_poolFree (b c : Nat) : Effect.reader b (.poolFree c) = 0 := rfl

@[simp] theorem Effect.owner_releaseReader (b c : Nat) : Effect.owner b (.releaseReader c) = 0 := rfl

@[simp] theorem Effect.owner_poolFree (b c : Nat) :
    Effect.owner b (.poolFree c) = if c = b then 1 else 0 := rfl

@[simp] theorem Effect.reader_custom (b tag : Nat) : Effect.reader b (.custom tag) = 0 := rfl

@[simp] theorem Effect.owner_custom (b tag : Nat) : Effect.owner b (.custom tag) = 0 := rfl

theorem Begins.due {w : World} {k : Task} {f : Effect → Nat} (h : Begins w k) : k.due f = 0 := by
  cases h <;> rfl

/-- A move of a task that touches nothing owes what it owed. -/
theorem TaskMove.due {w : World} {k k' : Task} {f : Effect → Nat} (hf : ∀ tag, f (.custom tag) = 0)
    (h : TaskMove w k k') : k'.due f = k.due f := by
  cases h with
  | custom => simp [Task.due, hf]
  | _ => rfl

/-! ### Moves and teardowns carry over what is due -/

namespace World
variable {w : World} {f : Effect → Nat} {i t dst src : Nat} {after : After}

@[simp] theorem bufDue_some (s : BufSlot) : bufDue f (some s) = tally f s.buf.resetEffects := rfl

@[simp] theorem bufDue_none : bufDue f none = 0 := rfl

@[simp] theorem readDue_some (s : ReadSlot) : readDue f (some s) = tally f s.handle.releaseEffects := rfl

@[simp] theorem readDue_none : readDue f none = 0 := rfl

theorem due_moveBuf {s : BufSlot} (hs : w.holdsBuf i s) :
    ((w.setBuf i (some { buf := {} })).addBuf s).due f = w.due f := by
  have := due_setBuf (f := f) hs (some { buf := {} })
  simp at this ⊢; omega

theorem due_moveRead {s : ReadSlot} (hs : w.reads[i]? = some (some s)) :
    ((w.setRead i (some { handle := {} })).addRead s).due f = w.due f := by
  have := due_setRead (f := f) hs (some { handle := {} })
  simp at this ⊢; omega

theorem due_tearBuf {s : BufSlot} (hs : w.holdsBuf i s) :
    ((w.setBuf i none).addTask (.teardown s.buf.resetEffects after)).due f = w.due f := by
  have := due_setBuf (f := f) hs none
  simp [Task.due] at this ⊢; omega

theorem due_tearRead {s : ReadSlot} (hs : w.reads[i]? = some (some s)) :
    ((w.setRead i none).addTask (.teardown s.handle.releaseEffects after)).due f = w.due f := by
  have := due_setRead (f := f) hs none
  simp [Task.due] at this ⊢; omega

theorem due_finishBuf {s : BufSlot} (ht : w.tasks[t]? = some (.teardown [] (.assignBuf dst src)))
    (hs : w.holdsBuf src s) (hd : w.bufs[dst]? = some none) :
    (((w.setBuf dst (some s)).setBuf src (some { buf := {} })).setTask t .done).due f = w.due f := by
  have hne : dst ≠ src := fun h => by
    unfold holdsBuf at hs
    rw [← h, hd] at hs; cases hs
  have h1 := due_setBuf (f := f) hd (some s)
  have hs' : (w.setBuf dst (some s)).bufs[src]? = some (some s) := by
    rw [setBuf, List.getElem?_set_ne hne]; exact hs
  have h2 := due_setBuf (f := f) hs' (some { buf := {} })
  have h3 := due_setTask (f := f) (w := (w.setBuf dst (some s)).setBuf src (some { buf := {} })) ht .done
  simp [Task.due] at h1 h2 h3; omega

theorem due_finishRead {s : ReadSlot} (ht : w.tasks[t]? = some (.teardown [] (.assignRead dst src)))
    (hs : w.reads[src]? = some (some s)) (hd : w.reads[dst]? = some none) :
    (((w.setRead dst (some s)).setRead src (some { handle := {} })).setTask t .done).due f = w.due f := by
  have hne : dst ≠ src := fun h => by rw [← h, hd] at hs; cases hs
  have h1 := due_setRead (f := f) hd (some s)
  have hs' : (w.setRead dst (some s)).reads[src]? = some (some s) := by
    rw [setRead, List.getElem?_set_ne hne]; exact hs
  have h2 := due_setRead (f := f) hs' (some { handle := {} })
  have h3 :=
    due_setTask (f := f) (w := (w.setRead dst (some s)).setRead src (some { handle := {} })) ht .done
  simp [Task.due] at h1 h2 h3; omega

/-- A held lease is one more release due. -/
theorem due_hold {b c : Nat} {s : BufSlot} {blk : PhysBlock} (hs : w.holdsBuf i s)
    (hc : s.buf.control = some b ∧ s.buf.heldReaderLease = none) :
    ((w.setBlock c blk).setBuf i (some { s with buf := s.buf.withLease (some b) })).due f =
      w.due f + f (.releaseReader b) := by
  have hset := due_setBuf (w := w.setBlock c blk) (f := f) hs
    (some { s with buf := s.buf.withLease (some b) })
  have heff : tally f (s.buf.withLease (some b)).resetEffects =
      f (.releaseReader b) + tally f s.buf.resetEffects := by
    simp only [SharedBuffer.resetEffects, hc.2]
    rfl
  simp only [bufDue_some, heff, due_setBlock] at hset
  omega

/-- A task that moves on as `k'`, owing the same. -/
theorem due_setTask_eq {k : Task} (ht : w.tasks[t]? = some k) (k' : Task) (hk : k'.due f = k.due f) :
    (w.setTask t k').due f = w.due f := by
  have := due_setTask (f := f) ht k'
  omega

end World

/-! ### What an `allocate` is doing to a block -/

/-- An `allocate` has chosen the block and not yet returned it. -/
structure Taking where
  /-- The block is new. -/
  fresh : Bool
  /-- The UID of the generation before is gone. -/
  cleared : Bool
deriving DecidableEq

def AllocPc.taking (b : Nat) : AllocPc → Option Taking
  | .chosen c fresh => if c = b then some ⟨fresh, false⟩ else none
  | .uidCleared c fresh | .stampCleared c fresh => if c = b then some ⟨fresh, true⟩ else none
  | _ => none

def World.phase (w : World) (b : Nat) (blk : PhysBlock) : Option Taking :=
  (w.pools blk.pool).taking b

theorem AllocPc.of_taking {b : Nat} {pc : AllocPc} {t : Taking} (h : pc.taking b = some t) :
    pc = .chosen b t.fresh ∨ pc = .uidCleared b t.fresh ∨ pc = .stampCleared b t.fresh := by
  cases pc <;> simp_all [taking] <;> obtain ⟨rfl, rfl⟩ := h <;> simp

theorem PcMove.taking {w : World} {p b : Nat} {pc pc' : AllocPc} (h : PcMove w p pc pc') :
    pc'.taking b = pc.taking b := by
  cases h <;> rfl

section
variable {w : World} {p b : Nat} {blk : PhysBlock} {pc : AllocPc}

theorem World.setPool_self : (w.setPool p pc).pools p = pc := by simp [setPool]

theorem World.setPool_ne {q : Nat} (h : q ≠ p) : (w.setPool p pc).pools q = w.pools q := by
  simp [setPool, h]

theorem World.phase_setPool_self (hp : blk.pool = p) : (w.setPool p pc).phase b blk = pc.taking b := by
  rw [phase, hp, setPool_self]

theorem World.phase_setPool_none (hp : w.phase b blk = none)
    (h : (w.pools p).taking b = none → pc.taking b = none) : (w.setPool p pc).phase b blk = none := by
  by_cases hpool : blk.pool = p
  · rw [phase_setPool_self hpool]
    exact h (by rw [← hpool]; exact hp)
  · rw [phase, setPool_ne hpool]; exact hp

/-- A block that the pool's `allocate` is not concerned with. -/
theorem World.phase_setPool_of (h : (w.pools p).taking b = pc.taking b) :
    (w.setPool p pc).phase b blk = w.phase b blk := by
  by_cases hp : blk.pool = p
  · rw [phase_setPool_self hp, phase, hp, h]
  · rw [phase, phase, setPool_ne hp]

end

end Atomic

end MemfdBuffer
