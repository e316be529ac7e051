import MemfdBuffer.PoolRun

/-!
# What becomes of the blocks of a pool

A call leaves the generation of a block alone unless it hands the block out. Blocks are never given back to the system,
so the memory that a pool takes is bounded only if it stops making them: an `allocate` makes one when each block of the
size is in use or refuses its claim, and in no other case.
-/

namespace MemfdBuffer

/-- What a block keeps while it is not handed out; its UID and what its header says of it only from publication on. -/
structure SharedBufferBlock.Stays (x y : SharedBufferBlock) : Prop where
  nativeHandle : y.nativeHandle = x.nativeHandle
  mappedSize : y.mappedSize = x.mappedSize
  payloadSize : y.payloadSize = x.payloadSize
  blockId : y.blockId = x.blockId
  currentUid : x.currentUid ≠ 0 → y.currentUid = x.currentUid
  ipcUid : y.control.ipcUid = x.control.ipcUid ∨ y.control.ipcUid = x.currentUid

variable {pool pool' : Pool} {b c n : Nat} {x : SharedBufferBlock}

theorem SharedBufferBlock.Stays.refl (x : SharedBufferBlock) : x.Stays x := ⟨rfl, rfl, rfl, rfl, fun _ => rfl, .inl rfl⟩

/-! ### Calls of the pool -/

theorem Outside.on_uid (act : Outside) (x : SharedBufferBlock) (readers : Nat) :
    ∃ control, (act.on x readers).1 = x.withControl control ∧ control.ipcUid = x.control.ipcUid := by
  cases act with
  | acquire b =>
    simp only [Outside.on]
    split
    · exact ⟨x.control, rfl, rfl⟩
    · exact ⟨_, rfl, rfl⟩
  | release b =>
    simp only [Outside.on]
    split
    · exact ⟨x.control, rfl, rfl⟩
    · exact ⟨_, rfl, rfl⟩
  | refresh b now =>
    simp only [Outside.on]
    split
    · exact ⟨x.control, rfl, rfl⟩
    · exact ⟨_, rfl, rfl⟩

namespace Pool

theorem outsideStep_uid (act : Outside) (hb : pool.allBlocks[b]? = some x) :
    ∃ control, (pool.outsideStep act).allBlocks[b]? = some (x.withControl control) ∧
      control.ipcUid = x.control.ipcUid := by
  rw [get_outsideStep, hb, Option.map_some]
  split
  · obtain ⟨control, hx, huid⟩ := act.on_uid x (pool.outside b)
    exact ⟨control, by rw [hx], huid⟩
  · exact ⟨x.control, rfl, rfl⟩

/-- The accesses from outside leave the UID in the header. -/
theorem interfere_uid (acts : List Outside) (hb : pool.allBlocks[b]? = some x) :
    ∃ control, (pool.interfere acts).allBlocks[b]? = some (x.withControl control) ∧
      control.ipcUid = x.control.ipcUid := by
  induction acts generalizing pool x with
  | nil => exact ⟨x.control, hb, rfl⟩
  | cons act acts ih =>
    obtain ⟨control, hx, huid⟩ := outsideStep_uid act hb
    obtain ⟨control', hx', huid'⟩ := ih hx
    exact ⟨control', hx', huid'.trans huid⟩

theorem interfere_stays (acts : List Outside) (hb : pool.allBlocks[b]? = some x) :
    ∃ y, (pool.interfere acts).allBlocks[b]? = some y ∧ x.Stays y := by
  obtain ⟨control, hx, huid⟩ := interfere_uid acts hb
  exact ⟨_, hx, rfl, rfl, rfl, rfl, fun _ => rfl, .inl huid⟩

theorem markPublished_stays (now : Nat) (hb : pool.allBlocks[b]? = some x) :
    ∃ y, (pool.markPublished c now).allBlocks[b]? = some y ∧ x.Stays y := by
  unfold markPublished
  rw [get_modifyControl, get_modifyBlock, hb, Option.map_some, Option.map_some]
  by_cases hc : b = c
  · rw [if_pos hc, if_pos hc]
    exact ⟨_, rfl, rfl, rfl, rfl, rfl, fun _ => rfl, .inr rfl⟩
  · rw [if_neg hc, if_neg hc]
    exact ⟨x, rfl, .refl x⟩

theorem assignUid_stays (uid : UInt64) (hb : pool.allBlocks[b]? = some x) :
    ∃ y, (pool.assignUid c uid).1.allBlocks[b]? = some y ∧ x.Stays y := by
  unfold assignUid
  split
  · exact ⟨x, hb, .refl x⟩
  · rename_i block hc
    split
    · rename_i hzero
      rw [get_modifyBlock, hb, Option.map_some]
      by_cases hbc : b = c
      · rw [if_pos hbc]
        rw [hbc, hc] at hb
        cases hb
        exact ⟨_, rfl, rfl, rfl, rfl, rfl, fun hx => absurd hzero hx, .inl rfl⟩
      · rw [if_neg hbc]
        exact ⟨x, rfl, .refl x⟩
    · exact ⟨x, hb, .refl x⟩

theorem registerBlock_stays (euid : Nat) (pid : Int) (socket : Except Exn Unit) (hb : pool.allBlocks[b]? = some x) :
    ∃ y, (pool.registerBlock c euid pid socket).1.allBlocks[b]? = some y ∧ x.Stays y := by
  unfold registerBlock
  split
  · exact ⟨x, hb, .refl x⟩
  · split
    · exact ⟨x, hb, .refl x⟩
    · split
      · exact ⟨x, hb, .refl x⟩
      · exact ⟨x, hb, .refl x⟩
      · dsimp only
        rw [get_modifyBlock, hb, Option.map_some]
        split
        · exact ⟨_, rfl, rfl, rfl, rfl, rfl, fun _ => rfl, .inl rfl⟩
        · exact ⟨x, rfl, .refl x⟩

end Pool

namespace PoolRun
variable {s s' : PoolRun} {op : PoolOp}

/-- No call touches the generation of a block that it does not hand out. -/
theorem Inv.stays (h : Inv s) (hs : step s op = some s') (hb : s.pool.allBlocks[b]? = some x)
    (hnot : ∀ n e, op = .allocate n e → (s.pool.allocate n e).2 ≠ .ok b) :
    ∃ y, s'.pool.allBlocks[b]? = some y ∧ x.Stays y := by
  cases op with
  | allocate n e =>
    have hnot := hnot n e rfl
    cases ha : s.pool.allocate n e with
    | mk pool' r =>
      rw [ha] at hnot
      simp only [step, ha] at hs
      cases r with
      | ok c =>
        cases hs
        obtain ⟨acts, -, hagree⟩ := (h.pool.allocate_ok ha).1.others
        have hbc : b ≠ c := fun hbc => hnot (by rw [hbc])
        rw [(hagree b hbc).1]
        exact Pool.interfere_stays acts hb
      | error y =>
        cases hs
        obtain ⟨acts, -, hall, -⟩ := (h.pool.allocate_error ha).1.blocks
        rw [hall]
        exact Pool.interfere_stays acts hb
  | free entry =>
    cases hs
    cases entry with
    | none => exact ⟨x, hb, .refl x⟩
    | some c =>
      rw [Pool.get_free, hb, Option.map_some]
      split
      · exact ⟨_, rfl, rfl, rfl, rfl, rfl, fun _ => rfl, .inl rfl⟩
      · exact ⟨x, rfl, .refl x⟩
  | markPublished c now => cases hs; exact Pool.markPublished_stays now hb
  | assignUid c uid => cases hs; exact Pool.assignUid_stays uid hb
  | register c euid pid socket => cases hs; exact Pool.registerBlock_stays euid pid socket hb
  | outside act => cases hs; exact Pool.interfere_stays [act] hb

/-- A mapping keeps its size in any case. -/
theorem Inv.mappedSize (h : Inv s) (hs : step s op = some s') (hb : s.pool.allBlocks[b]? = some x) :
    ∃ y, s'.pool.allBlocks[b]? = some y ∧ y.mappedSize = x.mappedSize := by
  by_cases hnot : ∀ n e, op = .allocate n e → (s.pool.allocate n e).2 ≠ .ok b
  · obtain ⟨y, hy, hstays⟩ := h.stays hs hb hnot
    exact ⟨y, hy, hstays.mappedSize⟩
  · push Not at hnot
    obtain ⟨n, e, rfl, hok⟩ := hnot
    cases ha : s.pool.allocate n e with
    | mk pool' r =>
      rw [ha] at hok
      simp only [step, ha] at hs
      cases hok
      cases hs
      obtain ⟨hall, -⟩ := h.pool.allocate_ok ha
      obtain ⟨y, hy, hshape, -, hn, -⟩ := hall.block
      refine ⟨y, hy, ?_⟩
      have ho := hall.origin
      split at ho
      · rw [ho.1] at hb
        simp at hb
      · rw [hshape.mapped, (h.pool.stored hb).mapped, hn, h.pool.bucket_eq hb ho.1]

end PoolRun

/-! ### Sizes -/

namespace Pool
variable {pool pool' : Pool} {n : Nat}

/-- The blocks of a size. -/
def members (pool : Pool) (n : Nat) : List Nat :=
  (List.range pool.allBlocks.length).filter fun b => (pool.allBlocks[b]?).any (·.payloadSize == n)

/-- Those in use. -/
def used (pool : Pool) (n : Nat) : List Nat := (pool.members n).filter fun b => (pool.allBlocks[b]?).any (·.inUse)

/-- The entries of the bucket that refuse their claim, or would if an `allocate` came to them. -/
def refusals (pool : Pool) (n : Nat) (e : AllocEnv) : Nat := (pool.attempts e.attempt 0 (pool.bucket n)).count false

theorem mem_members {b : Nat} : b ∈ pool.members n ↔
    ∃ block, pool.allBlocks[b]? = some block ∧ block.payloadSize = n := by
  rw [members, List.mem_filter, List.mem_range, Option.any_eq_true_iff_get]
  constructor
  · rintro ⟨hb, hsome, hn⟩
    exact ⟨_, Option.some_get hsome |>.symm, by simpa using hn⟩
  · rintro ⟨block, hb, hn⟩
    refine ⟨(List.getElem?_eq_some_iff.1 hb).1, by rw [hb]; rfl, ?_⟩
    simp [hb, hn]

theorem length_attempts (attempt : Nat → Attempt) (entries : List (Option Nat)) (pool : Pool) (i : Nat) :
    (attempts attempt pool i entries).length = entries.length := by
  induction entries generalizing pool i with
  | nil => rfl
  | cons entry entries ih => exact congrArg (· + 1) (ih _ _)

/-- The bucket lists the blocks of the size that are not in use. -/
theorem Inv.length_members (h : Inv pool) (n : Nat) :
    (pool.members n).length = (pool.used n).length + (pool.bucket n).length := by
  have hnodup : (pool.members n).Nodup := List.nodup_range.filter _
  have hperm : (((pool.members n).filter fun b => !(pool.allBlocks[b]?).any (·.inUse)).map some).Perm
    (pool.bucket n) := by
    refine (List.perm_ext_iff_of_nodup ((hnodup.filter _).map (Option.some_injective _)) (h.nodup n)).2 fun entry => ?_
    rw [List.mem_map]
    constructor
    · rintro ⟨b, hb, rfl⟩
      obtain ⟨hmem, hfree⟩ := List.mem_filter.1 hb
      obtain ⟨block, hblock, rfl⟩ := mem_members.1 hmem
      exact h.freed hblock (by simpa [hblock] using hfree)
    · intro hmem
      cases entry with
      | none => exact absurd hmem (h.nonnull n)
      | some b =>
        obtain ⟨block, hblock, hfree, hn⟩ := h.listed hmem
        exact ⟨b, List.mem_filter.2 ⟨mem_members.2 ⟨block, hblock, hn⟩, by simp [hblock, hfree]⟩, rfl⟩
  rw [← hperm.length_eq, List.length_map]
  exact List.length_eq_length_filter_add _

/-- The members depend on the sizes alone. -/
theorem members_congr (hlen : pool'.allBlocks.length = pool.allBlocks.length)
    (h : ∀ (b : Nat) (x : SharedBufferBlock), pool.allBlocks[b]? = some x →
      ∃ y : SharedBufferBlock, pool'.allBlocks[b]? = some y ∧ y.payloadSize = x.payloadSize) :
    pool'.members n = pool.members n := by
  unfold members
  rw [hlen]
  refine List.filter_congr fun b hb => ?_
  have hx := List.getElem?_eq_getElem (List.mem_range.1 hb)
  obtain ⟨y, hy, hsize⟩ := h b _ hx
  rw [hx, hy, Option.any_some, Option.any_some, hsize]

/-- One more block. -/
theorem members_append {block : SharedBufferBlock} (hlen : pool'.allBlocks.length = pool.allBlocks.length + 1)
    (hblock : pool'.allBlocks[pool.allBlocks.length]? = some block)
    (h : ∀ (b : Nat) (x : SharedBufferBlock), pool.allBlocks[b]? = some x →
      ∃ y : SharedBufferBlock, pool'.allBlocks[b]? = some y ∧ y.payloadSize = x.payloadSize) :
    pool'.members n = pool.members n ++ if block.payloadSize = n then [pool.allBlocks.length] else [] := by
  have hold : (List.range pool.allBlocks.length).filter (fun b => (pool'.allBlocks[b]?).any (·.payloadSize == n)) =
      pool.members n := by
    refine List.filter_congr fun b hb => ?_
    have hx := List.getElem?_eq_getElem (List.mem_range.1 hb)
    obtain ⟨y, hy, hsize⟩ := h b _ hx
    rw [hx, hy, Option.any_some, Option.any_some, hsize]
  rw [← hold, members, hlen, List.range_succ, List.filter_append, List.filter_singleton, hblock, Option.any_some]
  by_cases hn : block.payloadSize = n
  · rw [if_pos hn, hn, beq_self_eq_true, cond_true]
  · rw [if_neg hn, beq_eq_false_iff_ne.2 hn, cond_false]

end Pool

namespace PoolRun
variable {s s' : PoolRun} {op : PoolOp} {D : Nat}

theorem length_step (hs : step s op = some s') (hop : ∀ n e, op ≠ .allocate n e) :
    s'.pool.allBlocks.length = s.pool.allBlocks.length := by
  cases op with
  | allocate n e => exact absurd rfl (hop n e)
  | free entry =>
    cases hs
    cases entry with
    | none => rfl
    | some c =>
      dsimp only [Pool.free]
      split
      · rfl
      · split
        · exact Pool.length_modifyBlock _
        · rfl
  | markPublished c now => cases hs; simp [Pool.markPublished]
  | assignUid c uid =>
    cases hs
    dsimp only [Pool.assignUid]
    split
    · rfl
    · split
      · exact Pool.length_modifyBlock _
      · rfl
  | register c euid pid socket =>
    cases hs
    dsimp only [Pool.registerBlock]
    split
    · rfl
    · split
      · rfl
      · split
        · rfl
        · rfl
        · exact Pool.length_modifyBlock _
  | outside act => cases hs; exact Pool.length_outsideStep

/-- A call makes no block of a size, or it is an `allocate` of that size whose attempts have all failed. -/
theorem Inv.members_step (h : Inv s) (hs : step s op = some s') : s'.pool.members n = s.pool.members n ∨
    ∃ e, op = .allocate n e ∧ (∀ o ∈ s.pool.attempts e.attempt 0 (s.pool.bucket n), o = false) ∧
      (s'.pool.members n).length = (s.pool.members n).length + 1 := by
  have hkept (b : Nat) (x : SharedBufferBlock) (hb : s.pool.allBlocks[b]? = some x) :
      ∃ y : SharedBufferBlock, s'.pool.allBlocks[b]? = some y ∧ y.payloadSize = x.payloadSize := by
    obtain ⟨y, hy, hsize⟩ := h.mappedSize hs hb
    refine ⟨y, hy, ?_⟩
    have hx := (h.pool.stored hb).mapped
    have hy' := ((h.next hs).pool.stored hy).mapped
    omega
  cases op with
  | allocate m e =>
    cases ha : s.pool.allocate m e with
    | mk pool' r =>
      simp only [step, ha] at hs
      cases r with
      | ok b =>
        cases hs
        obtain ⟨hall, -⟩ := h.pool.allocate_ok ha
        have ho := hall.origin
        split at ho
        · rename_i hfail
          obtain ⟨rfl, hlen⟩ := ho
          obtain ⟨block, hb, -, -, hm, -⟩ := hall.block
          have happ := Pool.members_append (n := n) hlen hb hkept
          by_cases hmn : m = n
          · subst hmn
            refine .inr ⟨e, rfl, hfail, ?_⟩
            rw [happ, if_pos hm, List.length_append, List.length_singleton]
          · rw [if_neg (fun hn => hmn (hm.symm.trans hn)), List.append_nil] at happ
            exact .inl happ
        · exact .inl (Pool.members_congr ho.2 hkept)
      | error x =>
        cases hs
        obtain ⟨acts, -, hblocks, -⟩ := (h.pool.allocate_error ha).1.blocks
        refine .inl (Pool.members_congr ?_ hkept)
        rw [hblocks, Pool.length_interfere]
  | free entry => exact .inl (Pool.members_congr (length_step hs fun _ _ heq => by cases heq) hkept)
  | markPublished c now => exact .inl (Pool.members_congr (length_step hs fun _ _ heq => by cases heq) hkept)
  | assignUid c uid => exact .inl (Pool.members_congr (length_step hs fun _ _ heq => by cases heq) hkept)
  | register c euid pid socket => exact .inl (Pool.members_congr (length_step hs fun _ _ heq => by cases heq) hkept)
  | outside act => exact .inl (Pool.members_congr (length_step hs fun _ _ heq => by cases heq) hkept)

/-- An `allocate` of the size finds at most `D` blocks of it in use or refusing. -/
def Within (n D : Nat) (s : PoolRun) : PoolOp → Prop
  | .allocate m e => m = n → (s.pool.used n).length + s.pool.refusals n e ≤ D
  | _ => True

instance (n D : Nat) (s : PoolRun) (op : PoolOp) : Decidable (Within n D s op) := by
  unfold Within
  split <;> infer_instance

/-- A pool makes at most one block more of a size than are ever in use or refuse their claim at one time. -/
theorem growth_bounded (h : Machine.ReachIf step (· = {}) (Within n D) s) : (s.pool.members n).length ≤ D + 1 := by
  refine h.inv_of (P := fun s => (s.pool.members n).length ≤ D + 1) (Q := Inv) (fun _ hr => Reachable.inv hr.reach)
    (fun s hs => ?_)
    fun s op s' hi hle hok hs => ?_
  · rw [hs]
    exact Nat.zero_le _
  · rcases hi.members_step (n := n) hs with hsame | ⟨e, rfl, hfail, hlen⟩
    · rw [hsame]
      exact hle
    · -- every block of the size is in use or has refused
      have hall : s.pool.refusals n e = (s.pool.bucket n).length := by
        rw [Pool.refusals, List.count_eq_length.2 fun o ho => (hfail o ho).symm, Pool.length_attempts]
      have hok := hok rfl
      rw [hall, ← hi.pool.length_members n] at hok
      omega

theorem growth_bounded_recycled : (recycled.pool.members 4).length = 2 ∧ (recycled.pool.members 4).length ≤ 1 + 1 :=
  ⟨by decide, growth_bounded (.run (.start rfl) (by decide) (rfl : Machine.run step {} recycle = some recycled))⟩

end PoolRun

end MemfdBuffer
