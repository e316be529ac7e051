import MemfdBuffer.Pool
import MemfdBuffer.Lib.Tally

/-!
# The invariant of the pool

`Listed`: a free block stands exactly once, in the bucket of its own size, a block in use in none.
`Stored`: its header is in order and unclaimed. An `allocate` breaks `Stored` for the one block it has
claimed; that block is `Sealed` against the other processes until the claim is dropped, and everything
else is what those processes alone would have made of it (`AgreeOff`).
-/

namespace MemfdBuffer

open SwapRemove Tally

/-- The parts of a block that only `allocate` and `create_block` write are as for a size. -/
structure Shaped (block : SharedBufferBlock) : Prop where
  describes : block.control.describes block.payloadSize = true
  mapped : block.mappedSize = kSharedBufferPayloadOffset + block.payloadSize
  length : block.payload.length = block.payloadSize
  small : block.mappedSize ≤ offMax
  pos : 0 < block.payloadSize

/-- A block that nobody claims, of whose readers `readers` are in other processes. -/
structure Stored (block : SharedBufferBlock) (readers : Nat) : Prop extends Shaped block where
  counted : Readers block.control.readerState block.control.readerState.toNat
  outside : readers ≤ block.control.readerState.toNat
  registered : block.socketPath = "" → readers = 0

namespace Pool
variable {pool p q : Pool} {b c : Nat} {block : SharedBufferBlock} {act : Outside}

theorem get_modifyBlock (f : SharedBufferBlock → SharedBufferBlock) :
    (pool.modifyBlock b f).allBlocks[c]? =
      (pool.allBlocks[c]?).map fun block => if c = b then f block else block := by
  unfold modifyBlock
  cases hb : pool.allBlocks[b]? with
  | none =>
    by_cases hc : c = b
    · subst hc; simp [hb]
    · simp [hc]
  | some block =>
    by_cases hc : c = b
    · subst hc; simp [hb, get_set_self hb]
    · simp [hc, List.getElem?_set_ne (Ne.symm hc)]

theorem get_modifyControl (f : SharedBufferControlHeader → SharedBufferControlHeader) :
    (pool.modifyControl b f).allBlocks[c]? =
      (pool.allBlocks[c]?).map fun block => if c = b then block.withControl (f block.control) else block :=
  get_modifyBlock _

@[simp] theorem outside_modifyBlock (f : SharedBufferBlock → SharedBufferBlock) :
    (pool.modifyBlock b f).outside = pool.outside := by
  unfold modifyBlock; split <;> rfl

@[simp] theorem freeBlocks_modifyBlock (f : SharedBufferBlock → SharedBufferBlock) :
    (pool.modifyBlock b f).freeBlocks = pool.freeBlocks := by
  unfold modifyBlock; split <;> rfl

@[simp] theorem length_modifyBlock (f : SharedBufferBlock → SharedBufferBlock) :
    (pool.modifyBlock b f).allBlocks.length = pool.allBlocks.length := by
  unfold modifyBlock; split <;> simp

@[simp] theorem outside_modifyControl (f : SharedBufferControlHeader → SharedBufferControlHeader) :
    (pool.modifyControl b f).outside = pool.outside := outside_modifyBlock _

@[simp] theorem freeBlocks_modifyControl (f : SharedBufferControlHeader → SharedBufferControlHeader) :
    (pool.modifyControl b f).freeBlocks = pool.freeBlocks := freeBlocks_modifyBlock _

@[simp] theorem length_modifyControl (f : SharedBufferControlHeader → SharedBufferControlHeader) :
    (pool.modifyControl b f).allBlocks.length = pool.allBlocks.length := length_modifyBlock _

/-! ### Accesses from outside -/

theorem get_outsideStep : (pool.outsideStep act).allBlocks[c]? =
    (pool.allBlocks[c]?).map fun block =>
      if c = act.block then (act.on block (pool.outside c)).1 else block := by
  unfold outsideStep
  cases hb : pool.allBlocks[act.block]? with
  | none =>
    by_cases hc : c = act.block
    · rw [hc]; simp [hb]
    · simp [hc]
  | some block =>
    by_cases hc : c = act.block
    · subst hc; simp [hb, get_set_self hb]
    · simp [hc, List.getElem?_set_ne (Ne.symm hc)]

theorem outside_outsideStep (hb : pool.allBlocks[c]? = some block) :
    (pool.outsideStep act).outside c =
      if c = act.block then (act.on block (pool.outside c)).2 else pool.outside c := by
  unfold outsideStep
  by_cases hc : c = act.block
  · subst hc; simp [hb]
  · cases ha : pool.allBlocks[act.block]? with
    | none => simp [hc]
    | some x => simp [hc]

theorem outside_outsideStep_none (hb : pool.allBlocks[c]? = none) :
    (pool.outsideStep act).outside c = pool.outside c := by
  unfold outsideStep
  cases ha : pool.allBlocks[act.block]? with
  | none => rfl
  | some x =>
    have hc : c ≠ act.block := fun hc => by rw [← hc, hb] at ha; cases ha
    simp [hc]

@[simp] theorem freeBlocks_outsideStep : (pool.outsideStep act).freeBlocks = pool.freeBlocks := by
  unfold outsideStep; split <;> rfl

@[simp] theorem freeBlocks_interfere (acts : List Outside) :
    (pool.interfere acts).freeBlocks = pool.freeBlocks := by
  induction acts generalizing pool with
  | nil => rfl
  | cons act acts ih => exact ih.trans freeBlocks_outsideStep

theorem interfere_append (acts acts' : List Outside) :
    pool.interfere (acts ++ acts') = (pool.interfere acts).interfere acts' :=
  List.foldl_append

@[simp] theorem bucket_interfere (acts : List Outside) (n : Nat) :
    (pool.interfere acts).bucket n = pool.bucket n := by
  unfold bucket; rw [freeBlocks_interfere]

@[simp] theorem bucket_modifyBlock (f : SharedBufferBlock → SharedBufferBlock) (n : Nat) :
    (pool.modifyBlock b f).bucket n = pool.bucket n := by
  unfold bucket; rw [freeBlocks_modifyBlock]

theorem bucket_setBucket (n m : Nat) (entries : Option (List (Option Nat))) :
    (pool.setBucket n entries).bucket m = if m = n then entries.getD [] else pool.bucket m := by
  unfold bucket setBucket
  by_cases h : m = n
  · subst h; simp
  · simp [h]

/-- `free` on a block in use puts it at the end of its bucket; on any other it does nothing. -/
theorem free_eq (hb : pool.allBlocks[b]? = some block) : pool.free (some b) =
    if block.inUse then
      (pool.modifyBlock b fun block => { block with inUse := false }).setBucket block.payloadSize
        (some (pool.bucket block.payloadSize ++ [some b]))
    else pool := by
  simp only [free, hb]

theorem free_none (hb : pool.allBlocks[b]? = none) : pool.free (some b) = pool := by
  simp only [free, hb]

theorem get_free : (pool.free (some b)).allBlocks[c]? =
    (pool.allBlocks[c]?).map fun block => if c = b then { block with inUse := false } else block := by
  cases hb : pool.allBlocks[b]? with
  | none =>
    rw [free_none hb]
    by_cases hc : c = b
    · rw [hc, hb]; rfl
    · simp [hc]
  | some block =>
    rw [free_eq hb]
    by_cases hu : block.inUse = true
    · rw [if_pos hu]; exact get_modifyBlock _
    · rw [if_neg hu]
      by_cases hc : c = b
      · subst hc
        cases block; simp_all
      · simp [hc]

@[simp] theorem outside_free : (pool.free (some b)).outside = pool.outside := by
  cases hb : pool.allBlocks[b]? with
  | none => rw [free_none hb]
  | some block =>
    rw [free_eq hb]
    split
    · exact outside_modifyBlock _
    · rfl

theorem bucket_free (hb : pool.allBlocks[b]? = some block) (hu : block.inUse = true) (n : Nat) :
    (pool.free (some b)).bucket n =
      if n = block.payloadSize then pool.bucket block.payloadSize ++ [some b] else pool.bucket n := by
  rw [free_eq hb, if_pos hu, bucket_setBucket, bucket_modifyBlock]; rfl

end Pool

theorem blockSocketPath_ne (euid : Nat) (pid : Int) (blockId : UInt32) (nativeHandle : Int) :
    blockSocketPath euid pid blockId nativeHandle ≠ "" := by
  have hs (s : String) : s ++ ".sock" ≠ "" := fun h =>
    absurd (String.append_eq_empty_iff.1 h).2 (by decide)
  unfold blockSocketPath
  exact hs _

theorem Outside.on_eq (act : Outside) (block : SharedBufferBlock) (readers : Nat) :
    ∃ control, (act.on block readers).1 = block.withControl control := by
  cases act with
  | acquire b =>
    by_cases hno : block.socketPath = "" ∨ readerRefused block.control.readerState = true
    · exact ⟨_, by rw [Outside.on, if_pos hno]; rfl⟩
    · exact ⟨_, by rw [Outside.on, if_neg hno]⟩
  | release b =>
    by_cases hno : readers = 0
    · exact ⟨_, by rw [Outside.on, if_pos hno]; rfl⟩
    · exact ⟨_, by rw [Outside.on, if_neg hno]⟩
  | refresh b now =>
    by_cases hno : readers = 0
    · exact ⟨_, by rw [Outside.on, if_pos hno]; rfl⟩
    · exact ⟨_, by rw [Outside.on, if_neg hno]⟩

/-- The accesses from outside change headers only. -/
theorem Pool.get_interfere {pool : Pool} (acts : List Outside) (c : Nat) :
    ∃ f : SharedBufferBlock → SharedBufferBlock,
      (pool.interfere acts).allBlocks[c]? = (pool.allBlocks[c]?).map f ∧
        ∀ x, ∃ control, f x = x.withControl control := by
  induction acts generalizing pool with
  | nil => exact ⟨id, by simp [interfere], fun x => ⟨x.control, rfl⟩⟩
  | cons act acts ih =>
    obtain ⟨f, hf, hcontrol⟩ := @ih (pool.outsideStep act)
    refine ⟨fun x => f (if c = act.block then (act.on x (pool.outside c)).1 else x), ?_, fun x => ?_⟩
    · exact hf.trans (by rw [get_outsideStep, Option.map_map]; rfl)
    · obtain ⟨control, he⟩ := act.on_eq x (pool.outside c)
      dsimp only
      split
      · rw [he]
        obtain ⟨control', he'⟩ := hcontrol (x.withControl control)
        exact ⟨control', he'⟩
      · exact hcontrol x

namespace Stored
variable {block block' : SharedBufferBlock} {readers : Nat} {act : Outside}

theorem congr (h : Stored block readers)
    (hd : block'.control.describes block'.payloadSize = block.control.describes block.payloadSize)
    (hm : block'.mappedSize = block.mappedSize) (hs : block'.payloadSize = block.payloadSize)
    (hl : block'.payload.length = block.payload.length)
    (hr : block'.control.readerState = block.control.readerState) (hp : block'.socketPath = block.socketPath) :
    Stored block' readers where
  describes := hd.trans h.describes
  mapped := by rw [hm, hs]; exact h.mapped
  length := by rw [hl, hs]; exact h.length
  small := by rw [hm]; exact h.small
  pos := by rw [hs]; exact h.pos
  counted := by rw [hr]; exact h.counted
  outside := by rw [hr]; exact h.outside
  registered := by rw [hp]; exact h.registered

/-- A reader enters. -/
theorem enter (h : Stored block readers) (hr : readerRefused block.control.readerState = false) :
    Stored (block.withControl { block.control with readerState := block.control.readerState + 1#32 }) readers ∧
      (block.control.readerState + 1#32).toNat = block.control.readerState.toNat + 1 := by
  have hc := h.counted.acquire hr
  have hn : (block.control.readerState + 1#32).toNat = block.control.readerState.toNat + 1 := hc.toNat_eq
  have hout := h.outside
  refine ⟨⟨⟨h.describes, h.mapped, h.length, h.small, h.pos⟩, ?_, ?_, h.registered⟩, hn⟩
  · simpa only [SharedBufferBlock.withControl, hn] using hc
  · simp only [SharedBufferBlock.withControl, hn]; omega

/-- A reader leaves, if not all are outside. -/
theorem leave (h : Stored block readers) (hlt : readers < block.control.readerState.toNat) :
    Stored (block.withControl block.control.releaseReader) readers ∧
      block.control.releaseReader.readerState.toNat + 1 = block.control.readerState.toNat := by
  obtain ⟨m, hm⟩ : ∃ m, block.control.readerState.toNat = m + 1 := ⟨_, (Nat.succ_pred (by omega)).symm⟩
  have hr := h.counted
  rw [hm] at hr
  have hn : (block.control.readerState - 1#32).toNat = m := hr.leave.toNat_eq
  refine ⟨⟨⟨h.describes, h.mapped, h.length, h.small, h.pos⟩, ?_, ?_, h.registered⟩, ?_⟩
  · simpa only [SharedBufferBlock.withControl, SharedBufferControlHeader.releaseReader, hn] using hr.leave
  · simp only [SharedBufferBlock.withControl, SharedBufferControlHeader.releaseReader, hn]; omega
  · simp only [SharedBufferControlHeader.releaseReader, hn]; omega

/-- An access from outside leaves a block in order, and its local readers alone. -/
theorem on (h : Stored block readers) :
    Stored (act.on block readers).1 (act.on block readers).2 ∧
      (act.on block readers).1.control.readerState.toNat + readers =
        block.control.readerState.toNat + (act.on block readers).2 := by
  cases act with
  | acquire b =>
    by_cases hno : block.socketPath = "" ∨ readerRefused block.control.readerState = true
    · rw [Outside.on, if_pos hno]
      exact ⟨h, rfl⟩
    · rw [Outside.on, if_neg hno]
      push Not at hno
      obtain ⟨hs, hn⟩ := h.enter (by simpa using hno.2)
      have hout := h.outside
      refine ⟨⟨hs.toShaped, hs.counted, ?_, fun hp => absurd hp hno.1⟩, ?_⟩
      · simp only [SharedBufferBlock.withControl, hn]; omega
      · simp only [SharedBufferBlock.withControl, hn]; omega
  | release b =>
    by_cases hno : readers = 0
    · rw [Outside.on, if_pos hno]
      exact ⟨h, rfl⟩
    · rw [Outside.on, if_neg hno]
      have hout := h.outside
      have hless : Stored block (readers - 1) :=
        ⟨h.toShaped, h.counted, by omega, fun hp => by rw [h.registered hp]⟩
      obtain ⟨hs, hn⟩ := hless.leave (by omega)
      refine ⟨hs, ?_⟩
      simp only [SharedBufferBlock.withControl]; omega
  | refresh b now =>
    by_cases hno : readers = 0
    · rw [Outside.on, if_pos hno]
      exact ⟨h, rfl⟩
    · rw [Outside.on, if_neg hno]
      exact ⟨h.congr rfl rfl rfl rfl rfl rfl, rfl⟩

end Stored

namespace Pool
variable {pool p q : Pool} {b c n : Nat} {block block' : SharedBufferBlock} {act : Outside}

structure Inv (pool : Pool) : Prop where
  nodup (n : Nat) : (pool.bucket n).Nodup
  nonnull (n : Nat) : none ∉ pool.bucket n
  listed {n b : Nat} : some b ∈ pool.bucket n →
    ∃ block, pool.allBlocks[b]? = some block ∧ block.inUse = false ∧ block.payloadSize = n
  freed {b : Nat} {block : SharedBufferBlock} : pool.allBlocks[b]? = some block →
    block.inUse = false → some b ∈ pool.bucket block.payloadSize
  stored {b : Nat} {block : SharedBufferBlock} : pool.allBlocks[b]? = some block →
    Stored block (pool.outside b)
  quiet {b : Nat} : pool.allBlocks[b]? = none → pool.outside b = 0

/-- The two pools differ in block `b` at most, their lists apart. -/
def AgreeOff (b : Nat) (p q : Pool) : Prop :=
  ∀ c, c ≠ b → p.allBlocks[c]? = q.allBlocks[c]? ∧ p.outside c = q.outside c

theorem Inv.empty : Inv {} where
  nodup _ := .nil
  nonnull _ := List.not_mem_nil
  listed h := absurd h List.not_mem_nil
  freed h := by simp at h
  stored h := by simp at h
  quiet _ := rfl

namespace Inv

theorem not_listed (h : Inv pool) (hb : pool.allBlocks[b]? = some block) (hu : block.inUse = true) :
    some b ∉ pool.bucket n := fun hm => by
  obtain ⟨block', hb', hu', -⟩ := h.listed hm
  rw [hb] at hb'; cases hb'
  rw [hu] at hu'; cases hu'

theorem bucket_eq (h : Inv pool) (hb : pool.allBlocks[b]? = some block) (hm : some b ∈ pool.bucket n) :
    block.payloadSize = n := by
  obtain ⟨block', hb', -, hn⟩ := h.listed hm
  rw [hb] at hb'; cases hb'; exact hn

/-- The blocks may change wherever their place in the lists does not depend on it. -/
theorem of_blocks (h : Inv p) (hq : q.freeBlocks = p.freeBlocks)
    (hnone : ∀ c, q.allBlocks[c]? = none → p.allBlocks[c]? = none ∧ q.outside c = p.outside c)
    (hsome : ∀ c y, q.allBlocks[c]? = some y → Stored y (q.outside c) ∧
      ∃ x, p.allBlocks[c]? = some x ∧ y.inUse = x.inUse ∧ y.payloadSize = x.payloadSize) : Inv q := by
  have hbucket : ∀ n, q.bucket n = p.bucket n := fun n => by unfold bucket; rw [hq]
  refine ⟨fun n => by rw [hbucket]; exact h.nodup n, fun n => by rw [hbucket]; exact h.nonnull n,
    fun hm => ?_, fun hc hu => ?_, fun hc => (hsome _ _ hc).1, fun hc => ?_⟩
  · rw [hbucket] at hm
    obtain ⟨x, hx, hux, hn⟩ := h.listed hm
    rename_i c
    cases hc : q.allBlocks[c]? with
    | none => rw [(hnone c hc).1] at hx; cases hx
    | some y =>
      obtain ⟨-, x', hx', hu', hs'⟩ := hsome c y hc
      rw [hx] at hx'; cases hx'
      exact ⟨y, rfl, hu'.trans hux, hs'.trans hn⟩
  · obtain ⟨-, x, hx, hu', hs'⟩ := hsome _ _ hc
    rw [hbucket, hs']
    exact h.freed hx (hu'.symm.trans hu)
  · rw [(hnone _ hc).2]
    exact h.quiet (hnone _ hc).1

/-- One block may come and go between the lists and its users. -/
theorem of_agree (h : Inv p) (ha : AgreeOff b q p) {y : SharedBufferBlock}
    (hnodup : ∀ n, (q.bucket n).Nodup) (hmem : ∀ n c, c ≠ some b → (c ∈ q.bucket n ↔ c ∈ p.bucket n))
    (hb : q.allBlocks[b]? = some y) (hstored : Stored y (q.outside b))
    (hlisted : ∀ n, some b ∈ q.bucket n ↔ y.inUse = false ∧ y.payloadSize = n) : Inv q := by
  refine ⟨hnodup, fun n hm => ?_, fun {n c} hm => ?_, fun {c x} hc hu => ?_, fun {c x} hc => ?_, fun {c} hc => ?_⟩
  · exact h.nonnull n ((hmem n none (by simp)).1 hm)
  · by_cases hcb : c = b
    · subst hcb
      exact ⟨y, hb, (hlisted n).1 hm⟩
    · rw [(ha c hcb).1]
      exact h.listed ((hmem n _ (by simpa using hcb)).1 hm)
  · by_cases hcb : c = b
    · subst hcb
      rw [hb] at hc; cases hc
      exact (hlisted _).2 ⟨hu, rfl⟩
    · rw [(ha c hcb).1] at hc
      exact (hmem _ _ (by simpa using hcb)).2 (h.freed hc hu)
  · by_cases hcb : c = b
    · subst hcb
      rw [hb] at hc; cases hc
      exact hstored
    · rw [(ha c hcb).1] at hc
      rw [(ha c hcb).2]
      exact h.stored hc
  · have hcb : c ≠ b := fun he => by rw [he, hb] at hc; cases hc
    rw [(ha c hcb).1] at hc
    rw [(ha c hcb).2]
    exact h.quiet hc

theorem modifyBlock (h : Inv pool) {f : SharedBufferBlock → SharedBufferBlock}
    (hf : ∀ x, pool.allBlocks[b]? = some x → Stored (f x) (pool.outside b) ∧
      (f x).inUse = x.inUse ∧ (f x).payloadSize = x.payloadSize) : Inv (pool.modifyBlock b f) := by
  refine h.of_blocks (freeBlocks_modifyBlock f) (fun c hc => ?_) fun c y hc => ?_
  · rw [get_modifyBlock, Option.map_eq_none_iff] at hc
    exact ⟨hc, by rw [outside_modifyBlock]⟩
  · rw [get_modifyBlock, Option.map_eq_some_iff] at hc
    obtain ⟨x, hx, rfl⟩ := hc
    rw [outside_modifyBlock]
    by_cases hcb : c = b
    · subst hcb
      rw [if_pos rfl]
      exact ⟨(hf x hx).1, x, hx, (hf x hx).2⟩
    · rw [if_neg hcb]
      exact ⟨h.stored hx, x, hx, rfl, rfl⟩

theorem outsideStep (h : Inv pool) : Inv (pool.outsideStep act) := by
  refine h.of_blocks freeBlocks_outsideStep (fun c hc => ?_) fun c y hc => ?_
  · rw [get_outsideStep, Option.map_eq_none_iff] at hc
    exact ⟨hc, outside_outsideStep_none hc⟩
  · rw [get_outsideStep, Option.map_eq_some_iff] at hc
    obtain ⟨x, hx, rfl⟩ := hc
    rw [outside_outsideStep hx]
    by_cases hcb : c = act.block
    · rw [if_pos hcb, if_pos hcb]
      obtain ⟨control, he⟩ := act.on_eq x (pool.outside c)
      exact ⟨(h.stored hx).on.1, x, hx, by rw [he]; rfl, by rw [he]; rfl⟩
    · rw [if_neg hcb, if_neg hcb]
      exact ⟨h.stored hx, x, hx, rfl, rfl⟩

theorem interfere (h : Inv pool) (acts : List Outside) : Inv (pool.interfere acts) := by
  induction acts generalizing pool with
  | nil => exact h
  | cons act acts ih => exact ih h.outsideStep

theorem markPublished (h : Inv pool) (now : Nat) : Inv (pool.markPublished b now) := by
  refine modifyBlock (modifyBlock h fun x hx => ?_) fun x hx => ?_
  · exact ⟨(h.stored hx).congr rfl rfl rfl rfl rfl rfl, rfl, rfl⟩
  · rw [get_modifyBlock, Option.map_eq_some_iff] at hx
    obtain ⟨x, hx, rfl⟩ := hx
    rw [if_pos rfl, outside_modifyBlock]
    exact ⟨(h.stored hx).congr rfl rfl rfl rfl rfl rfl, rfl, rfl⟩

theorem assignUid (h : Inv pool) (uid : UInt64) : Inv (pool.assignUid b uid).1 := by
  unfold Pool.assignUid
  split
  · exact h
  · split
    · exact modifyBlock h fun x hx => ⟨(h.stored hx).congr rfl rfl rfl rfl rfl rfl, rfl, rfl⟩
    · exact h

theorem withSocketPath (h : Inv pool) {path : String} (hp : path ≠ "") :
    Inv (pool.modifyBlock b fun block => { block with socketPath := path }) := by
  refine modifyBlock h fun x hx => ?_
  have hs := h.stored hx
  exact ⟨⟨⟨hs.describes, hs.mapped, hs.length, hs.small, hs.pos⟩, hs.counted, hs.outside,
    fun he => absurd he hp⟩, rfl, rfl⟩

theorem registerBlock (h : Inv pool) (euid : Nat) (pid : Int) (socket : Except Exn Unit) :
    Inv (pool.registerBlock b euid pid socket).1 := by
  unfold Pool.registerBlock
  cases pool.allBlocks[b]? with
  | none => exact h
  | some block =>
    dsimp only
    split
    · exact h
    · split
      · exact h
      · exact h
      · have hi := h.withSocketPath (b := b) (blockSocketPath_ne euid pid block.blockId block.nativeHandle)
        exact ⟨hi.nodup, hi.nonnull, hi.listed, hi.freed, hi.stored, hi.quiet⟩

theorem free (h : Inv pool) (entry : Option Nat) : Inv (pool.free entry) := by
  cases entry with
  | none => exact h
  | some b =>
    cases hb : pool.allBlocks[b]? with
    | none => rw [Pool.free_none hb]; exact h
    | some block =>
      by_cases hu : block.inUse = true
      · have hmem : ∀ n, some b ∉ pool.bucket n := fun n => h.not_listed hb hu
        have hget : (pool.free (some b)).allBlocks[b]? = some { block with inUse := false } := by
          rw [get_free, hb, Option.map_some, if_pos rfl]
        refine h.of_agree (b := b) (fun c hc => ⟨?_, by rw [outside_free]⟩) (fun n => ?_) (fun n c hc => ?_)
          hget ?_ fun n => ?_
        · rw [get_free]; simp [hc]
        · rw [bucket_free hb hu]
          split
          · rw [← List.concat_eq_append, List.nodup_concat]
            exact ⟨hmem _, h.nodup _⟩
          · exact h.nodup n
        · rw [bucket_free hb hu]
          split
          · rename_i hn
            simp [hn, hc]
          · rfl
        · rw [outside_free]
          exact (h.stored hb).congr rfl rfl rfl rfl rfl rfl
        · rw [bucket_free hb hu]
          by_cases hn : n = block.payloadSize
          · simp [hn]
          · simp [hn, hmem n, Ne.symm hn]
      · rw [Pool.free_eq hb, if_neg hu]; exact h

end Inv

end Pool

end MemfdBuffer
