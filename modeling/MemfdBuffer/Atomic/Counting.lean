import MemfdBuffer.Atomic.Account

/-!
# The reader count is exact

`references w b` counts, object by object, what holds block `b`; `Accounted` is what the reader word
says about them in every reachable world.
-/

namespace MemfdBuffer.Atomic

open Tally

namespace World
variable (w : World) (b : Nat)

/-- Imported buffers over `b` that were not moved from. -/
def importedBuffers : Nat :=
  w.bufs.countP fun o => o.any fun s => s.buf.hasIpcDescriptor && s.buf.dataPtr == some b

/-- Buffers that hold a reader lease on `b`. -/
def heldLeases : Nat :=
  w.bufs.countP fun o => o.any fun s => s.buf.heldReaderLease == some b

/-- Live `ReadHandle`s into `b`. -/
def readHandles : Nat :=
  w.reads.countP fun o => o.any fun s => s.handle.dataPtr == some b

/-- Imports that have acquired and not yet passed their UID check, or not yet released after it failed. -/
def pendingImports : Nat :=
  w.tasks.countP fun
    | .recheck c _ _ | .undo c => c == b
    | _ => false

/-- Releases left to do in the destructors and assignments under way. -/
def pendingReleases : Nat :=
  tally (fun
    | .teardown es _ => es.countP (· == .releaseReader b)
    | _ => 0) w.tasks

/-- The live references to `b`. -/
def references : Nat :=
  w.importedBuffers b + w.heldLeases b + w.readHandles b + w.pendingImports b + w.pendingReleases b

end World

section
variable {w : World} {b : Nat}

theorem tally_reader (es : List Effect) :
    tally (Effect.reader b) es = es.countP (· == .releaseReader b) := by
  rw [← tally_ite]
  refine tally_congr fun e _ => ?_
  cases e <;> simp [Effect.reader]

theorem tally_lease (lease : Option Nat) :
    tally (Effect.reader b) (leaseEffects lease) = if lease == some b then 1 else 0 := by
  cases lease <;> simp

theorem bufDue_reader {s : BufSlot} (h : BufOk w s) :
    tally (Effect.reader b) s.buf.resetEffects =
      (if s.buf.hasIpcDescriptor && s.buf.dataPtr == some b then 1 else 0) +
        if s.buf.heldReaderLease == some b then 1 else 0 := by
  cases h with
  | empty he => rw [he]; rfl
  | own c blk lease hb hready hl he =>
    rw [he, SharedBuffer.resetEffects_allocated, tally_append, tally_lease]
    simp [SharedBuffer.withLease, SharedBuffer.allocated, SharedBuffer.hasIpcDescriptor]
  | imported c j r blk lease hj hi hl he =>
    rw [he, SharedBuffer.resetEffects_imported, tally_append, tally_lease,
      show ((SharedBuffer.imported c r.d).withLease lease).hasIpcDescriptor = true from
        hi.check.hasIpcDescriptor (b := c)]
    simp [SharedBuffer.withLease, SharedBuffer.imported, Nat.add_comm]

theorem readDue_reader {s : ReadSlot} (h : ReadOk w s) :
    tally (Effect.reader b) s.handle.releaseEffects = if s.handle.dataPtr == some b then 1 else 0 := by
  cases h with
  | empty he => rw [he]; rfl
  | leased c blk owner hb hready hg he hs =>
    rw [he]; simp [ReadHandle.releaseEffects]

theorem references_eq (h : Inv w) : w.refs b = w.references b := by
  have hb : tally (bufDue (Effect.reader b)) w.bufs = w.importedBuffers b + w.heldLeases b := by
    unfold World.importedBuffers World.heldLeases
    rw [← tally_ite, ← tally_ite, ← tally_add]
    refine tally_congr fun o ho => ?_
    obtain ⟨i, hi⟩ := List.mem_iff_getElem?.1 ho
    cases o with
    | none => rfl
    | some s => exact bufDue_reader (h.bufs i s hi)
  have hr : tally (readDue (Effect.reader b)) w.reads = w.readHandles b := by
    unfold World.readHandles
    rw [← tally_ite]
    refine tally_congr fun o ho => ?_
    obtain ⟨i, hi⟩ := List.mem_iff_getElem?.1 ho
    cases o with
    | none => rfl
    | some s => exact readDue_reader (h.reads i s hi)
  have ht : tally (Task.due (Effect.reader b)) w.tasks = w.pendingImports b + w.pendingReleases b := by
    unfold World.pendingImports World.pendingReleases
    rw [← tally_ite, ← tally_add]
    refine tally_congr fun k _ => ?_
    cases k <;> simp [Task.due, tally_reader]
  rw [World.refs, World.due, World.references]; omega

end

/-- What the reader word of block `b` says. -/
structure Accounted (w : World) (b : Nat) (blk : PhysBlock) : Prop where
  /-- The claim bit is set only between the claim CAS of an `allocate` and the store that drops it,
  and then nothing reads the block. -/
  claim : blk.control.readerState &&& kSharedBufferReuseClaimed ≠ 0#32 →
    (w.pools blk.pool = .chosen b false ∨ w.pools blk.pool = .uidCleared b false ∨
      w.pools blk.pool = .stampCleared b false) ∧ w.references b = 0
  /-- Otherwise the word is the number of live references. -/
  exact : blk.control.readerState &&& kSharedBufferReuseClaimed = 0#32 →
    blk.control.readerState.toNat = w.references b
  /-- It stays below the claim bit, so that no acquire carries into it. -/
  below : w.references b < 2 ^ 31
  /-- The store of `0` that drops the claim erases no reader. -/
  drop : ∀ p fresh, w.pools p = .stampCleared b fresh → w.references b = 0

theorem Inv.accounted {w : World} (h : Inv w) {b : Nat} {blk : PhysBlock} (hb : w.blocks[b]? = some blk) :
    Accounted w b blk := by
  have hbal := (h.blocks b blk hb).balanced
  rw [references_eq h] at hbal
  have hdrop : ∀ p fresh, w.pools p = .stampCleared b fresh → w.references b = 0 := fun p fresh hp => by
    obtain ⟨blk', hb', hpool⟩ := hp ▸ h.pools p
    rw [hb] at hb'; cases hb'
    rw [World.phase, hpool, hp, show (AllocPc.stampCleared b fresh).taking b = some ⟨fresh, true⟩ from
      if_pos rfl] at hbal
    exact hbal.of_taking
  generalize hph : w.phase b blk = phase at hbal
  generalize hn : w.references b = n at hbal hdrop
  generalize w.owners b = owners at hbal
  cases hbal with
  | counted hr hready ho =>
    refine ⟨fun hc => absurd hr.unclaimed hc, fun _ => ?_, ?_, ?_⟩
    · rw [hn]; exact hr.toNat_eq
    · rw [hn]; exact hr.lt
    · rw [hn]; exact hdrop
  | claimed hr hready hu =>
    refine ⟨fun _ => ⟨AllocPc.of_taking hph, hn⟩, fun hc => ?_, by rw [hn]; omega, by rw [hn]; exact hdrop⟩
    rw [hr] at hc; exact absurd hc (by decide)
  | fresh hr hready hu =>
    refine ⟨fun hc => ?_, fun _ => by rw [hr, hn]; rfl, by rw [hn]; omega, by rw [hn]; exact hdrop⟩
    rw [hr] at hc; exact absurd rfl hc

/-- The reader word of every block is exact in every reachable world. -/
theorem reader_accounting {w : World} (h : Reachable w) {b : Nat} {blk : PhysBlock}
    (hb : w.blocks[b]? = some blk) : Accounted w b blk :=
  h.inv.accounted hb

/-- Publisher `0` allocates, writes and publishes a block; another process imports the descriptor. -/
def exchange : List Act :=
  [.allocBegin 0 2, .allocCreate 0 7 3 0 [0, 0] 9, .allocStoreUid 0, .allocStoreStamp 0,
    .allocDropClaim 0, .writeByte 0 0 5, .writeByte 0 1 6, .beginPublish 0 "path", .task 0 false,
    .task 0 false, .task 0 false, .beginImport 0, .task 1 false, .task 1 false, .task 1 false,
    .task 1 false]

/-- The world after `exchange`. -/
def exchanged : World := (Machine.run step { clock := 5 } exchange).getD {}

theorem exchanged_reachable : Reachable exchanged :=
  Machine.Reach.run (.start ⟨5, rfl⟩)
    (show Machine.run step { clock := 5 } exchange = some exchanged from rfl)

theorem reader_accounting_exchanged : ∃ blk, exchanged.blocks[0]? = some blk ∧
    blk.control.readerState = 1#32 ∧ Accounted exchanged 0 blk :=
  ⟨_, rfl, rfl, reader_accounting exchanged_reachable rfl⟩

end MemfdBuffer.Atomic
