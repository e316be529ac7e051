import MemfdBuffer.PoolAlloc
import MemfdBuffer.Lib.Machine

/-!
# Runs of a pool

A pool under any sequence of calls, with the other processes between and inside them. `held` is the
history variable of the safety statement: the blocks that an `allocate` returned and no `free` has
taken back since.
-/

namespace MemfdBuffer

open Tally

structure PoolRun where
  pool : Pool := {}
  held : List Nat := []

inductive PoolOp
  | allocate (payloadSize : Nat) (e : AllocEnv)
  | free (block : Option Nat)
  | markPublished (b now : Nat)
  | assignUid (b : Nat) (uid : UInt64)
  | register (b euid : Nat) (pid : Int) (socket : Except Exn Unit)
  | outside (act : Outside)

namespace PoolRun

def step (s : PoolRun) : PoolOp → Option PoolRun
  | .allocate payloadSize e =>
    match s.pool.allocate payloadSize e with
    | (pool, .ok b) => some { pool := pool, held := b :: s.held }
    | (pool, .error _) => some { s with pool := pool }
  | .free block => some { pool := s.pool.free block, held := s.held.filter (some · != block) }
  | .markPublished b now => some { s with pool := s.pool.markPublished b now }
  | .assignUid b uid => some { s with pool := (s.pool.assignUid b uid).1 }
  | .register b euid pid socket => some { s with pool := (s.pool.registerBlock b euid pid socket).1 }
  | .outside act => some { s with pool := s.pool.outsideStep act }

abbrev Reachable (s : PoolRun) : Prop := Machine.Reach step (· = {}) s

end PoolRun

namespace Pool
variable {pool pool' : Pool} {b c n : Nat} {block : SharedBufferBlock}

theorem InUse.congr (h : pool'.allBlocks[b]? = pool.allBlocks[b]?) : pool'.InUse b ↔ pool.InUse b := by
  unfold InUse; rw [h]

theorem inUse_modifyBlock {f : SharedBufferBlock → SharedBufferBlock} (hf : ∀ x, (f x).inUse = x.inUse) :
    (pool.modifyBlock c f).InUse b ↔ pool.InUse b := by
  unfold InUse
  rw [get_modifyBlock]
  cases pool.allBlocks[b]? with
  | none => simp
  | some x =>
    by_cases hc : b = c
    · simp [hc, hf]
    · simp [hc]

theorem inUse_outsideStep {act : Outside} : (pool.outsideStep act).InUse b ↔ pool.InUse b := by
  unfold InUse
  rw [get_outsideStep]
  cases pool.allBlocks[b]? with
  | none => simp
  | some x =>
    by_cases hc : b = act.block
    · obtain ⟨control, he⟩ := act.on_eq x (pool.outside act.block)
      simp [hc, he, SharedBufferBlock.withControl]
    · simp [hc]

theorem inUse_interfere (acts : List Outside) : (pool.interfere acts).InUse b ↔ pool.InUse b := by
  induction acts generalizing pool with
  | nil => rfl
  | cons act acts ih => exact ih.trans inUse_outsideStep

theorem inUse_markPublished (now : Nat) : (pool.markPublished c now).InUse b ↔ pool.InUse b := by
  unfold markPublished modifyControl
  refine (inUse_modifyBlock ?_).trans (inUse_modifyBlock ?_)
  · exact fun _ => rfl
  · exact fun _ => rfl

theorem inUse_assignUid (uid : UInt64) : (pool.assignUid c uid).1.InUse b ↔ pool.InUse b := by
  unfold assignUid
  split
  · rfl
  · split
    · exact inUse_modifyBlock fun _ => rfl
    · rfl

theorem inUse_registerBlock (euid : Nat) (pid : Int) (socket : Except Exn Unit) :
    (pool.registerBlock c euid pid socket).1.InUse b ↔ pool.InUse b := by
  unfold registerBlock
  split
  · rfl
  · split
    · rfl
    · split
      · rfl
      · rfl
      · exact inUse_modifyBlock fun _ => rfl

theorem inUse_free (entry : Option Nat) : (pool.free entry).InUse b ↔ pool.InUse b ∧ entry ≠ some b := by
  cases entry with
  | none => simp [free]
  | some c =>
    unfold InUse
    rw [get_free]
    cases pool.allBlocks[b]? with
    | none => simp
    | some x =>
      by_cases hbc : b = c
      · simp [hbc]
      · simp [hbc, Ne.symm hbc]

theorem Allocated.inUse {e : AllocEnv} (ha : Allocated pool n e pool' b) :
    pool'.InUse c ↔ c = b ∨ pool.InUse c := by
  obtain ⟨x, hx, -, hu, -⟩ := ha.block
  obtain ⟨acts, -, hagree⟩ := ha.others
  by_cases hcb : c = b
  · subst hcb
    exact ⟨fun _ => .inl rfl, fun _ => ⟨x, hx, hu⟩⟩
  · rw [InUse.congr (hagree c hcb).1, inUse_interfere]; simp [hcb]

theorem Untouched.inUse {e : AllocEnv} (ha : Untouched pool n e pool') : pool'.InUse c ↔ pool.InUse c := by
  obtain ⟨acts, -, hall, -⟩ := ha.blocks
  rw [@InUse.congr (pool.interfere acts) _ _ (by rw [hall]), inUse_interfere]

end Pool

namespace PoolRun
variable {s s' : PoolRun}

structure Inv (s : PoolRun) : Prop where
  pool : s.pool.Inv
  nodup : s.held.Nodup
  held (b : Nat) : b ∈ s.held ↔ s.pool.InUse b

theorem Inv.next (h : Inv s) {op : PoolOp} (hs : step s op = some s') : Inv s' := by
  cases op with
  | allocate n e =>
    cases ha : s.pool.allocate n e with
    | mk pool' r =>
      simp only [step, ha] at hs
      cases r with
      | ok b =>
        cases hs
        obtain ⟨hall, hinv⟩ := h.pool.allocate_ok ha
        refine ⟨hinv, List.nodup_cons.2 ⟨fun hb => h.pool.fresh hall ((h.held b).1 hb), h.nodup⟩, fun c => ?_⟩
        rw [List.mem_cons, hall.inUse, h.held]
      | error x =>
        cases hs
        obtain ⟨hall, hinv⟩ := h.pool.allocate_error ha
        exact ⟨hinv, h.nodup, fun c => by rw [hall.inUse, h.held]⟩
  | free block =>
    cases hs
    refine ⟨h.pool.free block, h.nodup.filter _, fun c => ?_⟩
    rw [List.mem_filter, Pool.inUse_free, h.held, bne_iff_ne, ne_comm]
  | markPublished b now =>
    cases hs
    exact ⟨h.pool.markPublished now, h.nodup, fun c => by rw [Pool.inUse_markPublished, h.held]⟩
  | assignUid b uid =>
    cases hs
    exact ⟨h.pool.assignUid uid, h.nodup, fun c => by rw [Pool.inUse_assignUid, h.held]⟩
  | register b euid pid socket =>
    cases hs
    exact ⟨h.pool.registerBlock euid pid socket, h.nodup, fun c => by rw [Pool.inUse_registerBlock, h.held]⟩
  | outside act =>
    cases hs
    exact ⟨h.pool.outsideStep, h.nodup, fun c => by rw [Pool.inUse_outsideStep, h.held]⟩

theorem Reachable.inv (h : Reachable s) : Inv s :=
  Machine.ReachIf.inv (P := Inv) (fun s he => by subst he; exact ⟨.empty, .nil, fun b => by simp [Pool.InUse]⟩)
    (fun _ _ _ hi _ hs => hi.next hs) h

/-- Every block is in use and unlisted, or free and listed exactly once, in the bucket of its size. -/
structure Partitioned (pool : Pool) : Prop where
  block {b : Nat} {block : SharedBufferBlock} : pool.allBlocks[b]? = some block →
    if block.inUse then ∀ n, some b ∉ pool.bucket n
    else (pool.bucket block.payloadSize).count (some b) = 1 ∧ ∀ n, n ≠ block.payloadSize → some b ∉ pool.bucket n
  bucket (n : Nat) : none ∉ pool.bucket n ∧ (pool.bucket n).Nodup ∧
    ∀ b, some b ∈ pool.bucket n → ∃ block, pool.allBlocks[b]? = some block ∧ block.payloadSize = n

/-- What a successful `allocate` of `n` bytes does. -/
structure Fresh (s : PoolRun) (n : Nat) (e : AllocEnv) (pool' : Pool) (b : Nat) : Prop where
  unheld : b ∉ s.held
  block : ∃ block, pool'.allBlocks[b]? = some block ∧ block.inUse = true ∧ block.payloadSize = n ∧
    block.mappedSize = kSharedBufferPayloadOffset + n ∧ kSharedBufferPayloadOffset + n ≤ sizeMax ∧
    block.control.payloadSize = n ∧ block.control.ipcUid = 0 ∧ block.control.publishTimestampUs = 0 ∧
    block.control.readerState &&& kSharedBufferReuseClaimed = 0#32
  /-- A block is created exactly if every entry of the bucket fails its attempt. -/
  created : (b = s.pool.allBlocks.length ∧ pool'.allBlocks.length = s.pool.allBlocks.length + 1) ↔
    ∀ o ∈ s.pool.attempts e.attempt 0 (s.pool.bucket n), o = false
  kept : s.pool.allBlocks.length ≤ pool'.allBlocks.length
  /-- Every other block is as the accesses from outside alone would have left it. -/
  others : ∃ acts, acts.Sublist (e.accesses (s.pool.bucket n).length) ∧
    ∀ c, c ≠ b → pool'.allBlocks[c]? = (s.pool.interfere acts).allBlocks[c]?
  lists : ∀ m c, c ≠ some b → (c ∈ pool'.bucket m ↔ c ∈ s.pool.bucket m)

theorem partitioned {pool : Pool} (h : pool.Inv) : Partitioned pool where
  block {b block} hb := by
    split
    · exact fun n => h.not_listed hb ‹_›
    · rename_i hu
      refine ⟨List.count_eq_one_of_mem (h.nodup _) (h.freed hb (by simpa using hu)), fun n hn hm => ?_⟩
      exact hn (h.bucket_eq hb hm).symm
  bucket n := by
    refine ⟨h.nonnull n, h.nodup n, fun b hm => ?_⟩
    obtain ⟨block, hb, -, hn⟩ := h.listed hm
    exact ⟨block, hb, hn⟩

theorem Inv.allocated (h : Inv s) {n b : Nat} {e : AllocEnv} {pool' : Pool}
    (ha : s.pool.allocate n e = (pool', .ok b)) : Fresh s n e pool' b := by
  obtain ⟨hall, -⟩ := h.pool.allocate_ok ha
  obtain ⟨acts, hacts, hagree⟩ := hall.others
  have ho := hall.origin
  refine ⟨fun hb => h.pool.fresh hall ((h.held b).1 hb), ?_, ?_, ?_, ⟨acts, hacts, fun c hc => (hagree c hc).1⟩,
    fun m => (hall.lists m).2.2⟩
  · obtain ⟨block, hb, hshape, hu, hn, huid, hstamp, hr⟩ := hall.block
    have hd := hshape.describes
    simp only [SharedBufferControlHeader.describes, Bool.and_eq_true, beq_iff_eq, hn] at hd
    have hm := hshape.mapped
    have hs := hshape.small
    rw [hn] at hm
    exact ⟨block, hb, hu, hn, hm, by rw [← hm]; exact hs.trans (by decide), hd.2, huid, hstamp, by rw [hr]; rfl⟩
  · split at ho
    · exact iff_of_true ho ‹_›
    · exact iff_of_false (fun hc => by omega) ‹_›
  · split at ho <;> omega

/-- The representation of the pool in every state that calls and other processes can bring about. -/
theorem pool_representation (h : Reachable s) : Partitioned s.pool ∧
    (∀ b, b ∈ s.held ↔ ∃ block, s.pool.allBlocks[b]? = some block ∧ block.inUse = true) ∧
    (∀ n e pool' b, s.pool.allocate n e = (pool', .ok b) → Fresh s n e pool' b) ∧
    ∀ n e pool' x, s.pool.allocate n e = (pool', .error x) → Pool.Untouched s.pool n e pool' :=
  ⟨partitioned h.inv.pool, h.inv.held, fun _ _ _ _ => h.inv.allocated,
    fun _ _ _ _ ha => (h.inv.pool.allocate_error ha).1⟩

/-- A block is published and freed, another process reads it, and two allocations of its size follow: the
first finds the reader, the second finds it gone. -/
def recycle : List PoolOp :=
  [.allocate 4 {}, .register 0 1000 7 (.ok ()), .markPublished 0 5, .free (some 0), .free (some 0),
    .allocate 4 { attempt := fun _ => { beforeLoad := [.acquire 0], now := 200000 } }, .outside (.release 0),
    .allocate 4 { attempt := fun _ => { now := 200000 } }]

def recycled : PoolRun := (Machine.run step {} recycle).getD {}

theorem recycled_reachable : Reachable recycled :=
  Machine.Reach.run (.start rfl) (show Machine.run step {} recycle = some recycled from rfl)

theorem pool_representation_recycled : recycled.held = [0, 1] ∧ Partitioned recycled.pool ∧
    ∃ pool', recycled.pool.allocate 4 {} = (pool', .ok 2) ∧ Fresh recycled 4 {} pool' 2 :=
  ⟨by decide, (pool_representation recycled_reachable).1, _, rfl,
    (pool_representation recycled_reachable).2.2.1 4 {} _ 2 rfl⟩

end PoolRun

end MemfdBuffer
