import MemfdBuffer.PoolInv

/-!
# What an allocation does

`allocate` in three parts: the scan for an entry to claim, the removal of that entry or the creation of
a block, and the stores that hand the block out. To every other block only the accesses from outside
happen meanwhile.
-/

namespace MemfdBuffer

open SwapRemove Tally

/-- The accesses from outside around one attempt. -/
def Attempt.accesses (e : Attempt) : List Outside := e.beforeLoad ++ e.beforeCas

/-- The accesses from outside during an `allocate` that scans `k` entries and hands out a block. -/
def AllocEnv.accesses (e : AllocEnv) (k : Nat) : List Outside :=
  (List.range' 0 k).flatMap (fun i => (e.attempt i).accesses) ++
    (e.beforeUid ++ e.beforeStamp ++ e.beforeDrop)

namespace Pool
variable {pool pool' p q : Pool} {b c n i : Nat} {block : SharedBufferBlock} {act : Outside}

/-- The outcomes of the claim attempts on all entries in turn. -/
def attempts (attempt : Nat → Attempt) : Pool → Nat → List (Option Nat) → List Bool
  | _, _, [] => []
  | pool, i, entry :: entries =>
    (pool.tryClaimBlock entry (attempt i)).2 ::
      attempts attempt (pool.tryClaimBlock entry (attempt i)).1 (i + 1) entries

/-! ### Agreement off a block -/

namespace AgreeOff

theorem trans {r : Pool} (h : AgreeOff b p q) (h' : AgreeOff b q r) : AgreeOff b p r :=
  fun c hc => ⟨(h c hc).1.trans (h' c hc).1, (h c hc).2.trans (h' c hc).2⟩

theorem modifyBlock (p : Pool) (f : SharedBufferBlock → SharedBufferBlock) :
    AgreeOff b (p.modifyBlock b f) p := fun c hc => by
  rw [get_modifyBlock, outside_modifyBlock]
  simp [hc]

theorem modifyControl (p : Pool) (f : SharedBufferControlHeader → SharedBufferControlHeader) :
    AgreeOff b (p.modifyControl b f) p := modifyBlock p _

theorem outsideStep (h : AgreeOff b p q) : AgreeOff b (p.outsideStep act) (q.outsideStep act) :=
  fun c hc => by
    rw [get_outsideStep, get_outsideStep, (h c hc).1, (h c hc).2]
    refine ⟨rfl, ?_⟩
    cases hq : q.allBlocks[c]? with
    | none =>
      rw [outside_outsideStep_none ((h c hc).1.trans hq), outside_outsideStep_none hq, (h c hc).2]
    | some x =>
      rw [outside_outsideStep ((h c hc).1.trans hq), outside_outsideStep hq, (h c hc).2]

theorem interfere (h : AgreeOff b p q) (acts : List Outside) :
    AgreeOff b (p.interfere acts) (q.interfere acts) := by
  induction acts generalizing p q with
  | nil => exact h
  | cons act acts ih => exact ih h.outsideStep

end AgreeOff

/-! ### A block nobody outside gets at -/

/-- Block `b` is `block`, has no reader outside and admits none. -/
structure Sealed (pool : Pool) (b : Nat) (block : SharedBufferBlock) : Prop where
  get : pool.allBlocks[b]? = some block
  quiet : pool.outside b = 0
  refused : block.socketPath = "" ∨ readerRefused block.control.readerState = true

namespace Sealed

theorem outsideStep (h : Sealed pool b block) : Sealed (pool.outsideStep act) b block := by
  have hon : b = act.block → act.on block 0 = (block, 0) := by
    rintro rfl
    cases act with
    | acquire c => exact if_pos h.refused
    | release c => rfl
    | refresh c now => rfl
  refine ⟨?_, ?_, h.refused⟩
  · rw [get_outsideStep, h.get, h.quiet, Option.map_some]
    split
    · rw [hon ‹_›]
    · rfl
  · rw [outside_outsideStep h.get, h.quiet]
    split
    · rw [hon ‹_›]
    · rfl

theorem interfere (h : Sealed pool b block) (acts : List Outside) :
    Sealed (pool.interfere acts) b block := by
  induction acts generalizing pool with
  | nil => exact h
  | cons act acts ih => exact ih h.outsideStep

theorem modifyBlock (h : Sealed pool b block) {f : SharedBufferBlock → SharedBufferBlock}
    (hf : (f block).socketPath = "" ∨ readerRefused (f block).control.readerState = true) :
    Sealed (pool.modifyBlock b f) b (f block) :=
  ⟨by rw [get_modifyBlock, h.get]; simp, by rw [outside_modifyBlock, h.quiet], hf⟩

end Sealed

/-- A block as `allocate` returns it. -/
def handedOut (block : SharedBufferBlock) (uid : UInt64) : SharedBufferBlock :=
  { block with
    inUse := true, currentUid := drawUid uid,
    control := { block.control with ipcUid := 0, publishTimestampUs := 0, readerState := 0#32 } }

/-- The stores of `handOut` reach a sealed block as if nobody else were there. -/
theorem handOut_spec (h : Sealed pool b block) (e : AllocEnv) :
    (pool.handOut b e).allBlocks[b]? = some (handedOut block e.uid) ∧ (pool.handOut b e).outside b = 0 ∧
      AgreeOff b (pool.handOut b e) (pool.interfere (e.beforeUid ++ e.beforeStamp ++ e.beforeDrop)) ∧
      (pool.handOut b e).freeBlocks = pool.freeBlocks := by
  have h1 := h.modifyBlock (f := fun block => { block with inUse := true, currentUid := drawUid e.uid })
    h.refused
  have h2 := (h1.interfere e.beforeUid).modifyBlock
    (f := fun block => block.withControl { block.control with ipcUid := 0 }) h.refused
  have h3 := (h2.interfere e.beforeStamp).modifyBlock
    (f := fun block => block.withControl { block.control with publishTimestampUs := 0 }) h.refused
  have h4 := h3.interfere e.beforeDrop
  refine ⟨?_, ?_, ?_, ?_⟩
  · refine (get_modifyControl _).trans ((congrArg (Option.map _) h4.get).trans ?_)
    rw [Option.map_some, if_pos rfl]
    rfl
  · exact (congrFun (outside_modifyControl _) b).trans h4.quiet
  · rw [interfere_append, interfere_append]
    refine (AgreeOff.modifyControl _ _).trans (AgreeOff.interfere ?_ _)
    refine (AgreeOff.modifyControl _ _).trans (AgreeOff.interfere ?_ _)
    refine (AgreeOff.modifyControl _ _).trans (AgreeOff.interfere ?_ _)
    exact AgreeOff.modifyBlock _ _
  · simp [handOut]

/-! ### The scan -/

theorem tryClaimBlock_spec (pool : Pool) (entry : Option Nat) (e : Attempt) :
    ∃ acts, acts.Sublist e.accesses ∧
      (pool.tryClaimBlock entry e = (pool.interfere acts, false) ∨
        ∃ b block, entry = some b ∧ (pool.interfere acts).allBlocks[b]? = some block ∧
          block.control.readerState = 0#32 ∧
          pool.tryClaimBlock entry e =
            ((pool.interfere acts).modifyControl b fun _ =>
              { block.control with readerState := kSharedBufferReuseClaimed }, true)) := by
  cases entry with
  | none => exact ⟨[], List.nil_sublist _, .inl rfl⟩
  | some b =>
    unfold tryClaimBlock
    dsimp only
    split
    · exact ⟨_, List.sublist_append_left .., .inl rfl⟩
    · split
      · exact ⟨_, List.sublist_append_left .., .inl rfl⟩
      · refine ⟨_, List.Sublist.refl _, ?_⟩
        rw [Attempt.accesses, interfere_append]
        split
        · rename_i control hc
          obtain ⟨block, hb, hr⟩ := Option.bind_eq_some_iff.1 hc
          unfold SharedBufferControlHeader.tryClaimReuse at hr
          split at hr
          · cases hr
            exact .inr ⟨b, block, rfl, hb, ‹_›, rfl⟩
          · cases hr
        · exact .inl rfl

/-- The scan claims nothing and every attempt fails, or it claims one free entry. -/
theorem scan_spec (attempt : Nat → Attempt) (entries : List (Option Nat)) (pool : Pool) (i : Nat) :
    ∃ acts, acts.Sublist ((List.range' i entries.length).flatMap fun i => (attempt i).accesses) ∧
      ((scan attempt pool i entries = (pool.interfere acts, none) ∧
          ∀ o ∈ attempts attempt pool i entries, o = false) ∨
        ∃ j b block, entries[j]? = some (some b) ∧ (pool.interfere acts).allBlocks[b]? = some block ∧
          block.control.readerState = 0#32 ∧ true ∈ attempts attempt pool i entries ∧
          scan attempt pool i entries =
            ((pool.interfere acts).modifyControl b fun _ =>
              { block.control with readerState := kSharedBufferReuseClaimed }, some (i + j, b))) := by
  induction entries generalizing pool i with
  | nil => exact ⟨[], List.nil_sublist _, .inl ⟨rfl, fun o ho => absurd ho List.not_mem_nil⟩⟩
  | cons entry entries ih =>
    obtain ⟨acts, hacts, h | ⟨b, block, rfl, hb, hr, h⟩⟩ := pool.tryClaimBlock_spec entry (attempt i)
    · obtain ⟨acts', hacts', h'⟩ := ih (pool.interfere acts) (i + 1)
      refine ⟨acts ++ acts', ?_, ?_⟩
      · rw [List.length_cons, List.range'_succ, List.flatMap_cons]
        exact hacts.append hacts'
      · rw [interfere_append]
        rcases h' with ⟨hs, ho⟩ | ⟨j, b, block, hj, hb, hr, ho, hs⟩
        · exact .inl ⟨by rw [scan, h]; exact hs, by rw [attempts, h]; simpa using ho⟩
        · refine .inr ⟨j + 1, b, block, hj, hb, hr, ?_, ?_⟩
          · rw [attempts, h]; exact List.mem_cons_of_mem _ ho
          · rw [scan, h, show i + (j + 1) = i + 1 + j by omega]; exact hs
    · refine ⟨acts, ?_, .inr ⟨0, b, block, rfl, hb, hr, ?_, ?_⟩⟩
      · rw [List.length_cons, List.range'_succ, List.flatMap_cons]
        exact hacts.trans (List.sublist_append_left ..)
      · rw [attempts, h]; exact List.mem_cons_self
      · rw [scan, h]; rfl

/-! ### The call -/

/-- What the caller of a successful `allocate` gets, and what it does to the rest of the pool. -/
structure Allocated (pool : Pool) (n : Nat) (e : AllocEnv) (pool' : Pool) (b : Nat) : Prop where
  block : ∃ block, pool'.allBlocks[b]? = some block ∧ Shaped block ∧ block.inUse = true ∧
    block.payloadSize = n ∧ block.control.ipcUid = 0 ∧ block.control.publishTimestampUs = 0 ∧
    block.control.readerState = 0#32
  quiet : pool'.outside b = 0
  /-- A block is created if all attempts fail, otherwise a listed one is taken. -/
  origin : if ∀ o ∈ pool.attempts e.attempt 0 (pool.bucket n), o = false then
      b = pool.allBlocks.length ∧ pool'.allBlocks.length = pool.allBlocks.length + 1
    else some b ∈ pool.bucket n ∧ pool'.allBlocks.length = pool.allBlocks.length
  others : ∃ acts, acts.Sublist (e.accesses (pool.bucket n).length) ∧
    AgreeOff b pool' (pool.interfere acts)
  lists (m : Nat) : (pool'.bucket m).Nodup ∧ some b ∉ pool'.bucket m ∧
    ∀ c, c ≠ some b → (c ∈ pool'.bucket m ↔ c ∈ pool.bucket m)
  /-- When the block was claimed nobody read it. -/
  unread : ∃ acts, ∀ x, (pool.interfere acts).allBlocks[b]? = some x → x.control.readerState = 0#32

/-- What a failing `allocate` leaves behind. -/
structure Untouched (pool : Pool) (n : Nat) (e : AllocEnv) (pool' : Pool) : Prop where
  failed : n ≠ 0 → ∀ o ∈ pool.attempts e.attempt 0 (pool.bucket n), o = false
  blocks : ∃ acts, acts.Sublist (e.accesses (pool.bucket n).length) ∧
    pool'.allBlocks = (pool.interfere acts).allBlocks ∧ pool'.outside = (pool.interfere acts).outside
  lists : pool'.freeBlocks = pool.freeBlocks

/-- The fields of a block that `create_block` makes. -/
def created (pool : Pool) (n : Nat) (nativeHandle : Int) : SharedBufferBlock :=
  { nativeHandle := nativeHandle, mappedSize := kSharedBufferPayloadOffset + n, payloadSize := n,
    blockId := pool.nextBlockId, control := { payloadSize := n }, payload := List.replicate n 0 }

theorem createBlock_ok {mapping : Except Exn Int} (h : pool.createBlock n mapping = (pool', .ok b)) :
    kSharedBufferPayloadOffset + n ≤ offMax ∧ b = pool.allBlocks.length ∧
      pool'.freeBlocks = pool.freeBlocks ∧ pool'.outside = pool.outside ∧
      ∃ nativeHandle, pool'.allBlocks = pool.allBlocks ++ [pool.created n nativeHandle] := by
  unfold createBlock at h
  split at h
  · cases h
  · dsimp only at h
    split at h
    · cases h
    · split at h
      · cases h
      · cases h
        exact ⟨by omega, rfl, rfl, rfl, _, rfl⟩

theorem createBlock_error {mapping : Except Exn Int} {x : Exn} (h : pool.createBlock n mapping = (pool', .error x)) :
    pool'.allBlocks = pool.allBlocks ∧ pool'.freeBlocks = pool.freeBlocks ∧
      pool'.outside = pool.outside := by
  unfold createBlock at h
  split at h
  · cases h; exact ⟨rfl, rfl, rfl⟩
  · dsimp only at h
    split at h
    · cases h; exact ⟨rfl, rfl, rfl⟩
    · split at h
      · cases h; exact ⟨rfl, rfl, rfl⟩
      · cases h

theorem bucket_takeEntry (entries : List (Option Nat)) (m : Nat) :
    (pool.takeEntry n i entries).bucket m = if m = n then swapRemove entries i else pool.bucket m := by
  rw [takeEntry, bucket_setBucket]
  cases swapRemove entries i <;> rfl

/-- The free pool's side of a claim: no reader anywhere, hence none outside. -/
theorem Inv.sealed (h : Inv p) (hb : p.allBlocks[b]? = some block) (hr : block.control.readerState = 0#32) :
    Sealed (p.modifyControl b fun _ => { block.control with readerState := kSharedBufferReuseClaimed }) b
      (block.withControl { block.control with readerState := kSharedBufferReuseClaimed }) where
  get := by rw [get_modifyControl, hb]; simp
  quiet := by
    have := (h.stored hb).outside
    rw [hr] at this
    rw [outside_modifyControl]; simpa using this
  refused := .inr readerRefused_claimed

theorem length_outsideStep : (pool.outsideStep act).allBlocks.length = pool.allBlocks.length := by
  unfold outsideStep; split <;> simp

@[simp] theorem length_interfere (acts : List Outside) :
    (pool.interfere acts).allBlocks.length = pool.allBlocks.length := by
  induction acts generalizing pool with
  | nil => rfl
  | cons act acts ih => exact ih.trans length_outsideStep

@[simp] theorem length_handOut (e : AllocEnv) : (pool.handOut b e).allBlocks.length = pool.allBlocks.length := by
  simp [handOut]

/-- A created block is nobody else's, for lack of a socket. -/
theorem Inv.created_sealed (h : Inv p) {mapping : Except Exn Int} (hc : p.createBlock n mapping = (q, .ok b)) :
    ∃ nativeHandle, Sealed q b (p.created n nativeHandle) ∧ AgreeOff b q p := by
  obtain ⟨-, rfl, -, hout, nativeHandle, hall⟩ := createBlock_ok hc
  refine ⟨nativeHandle, ⟨by rw [hall]; simp, by rw [hout]; exact h.quiet (by simp), .inl rfl⟩, fun c hc => ?_⟩
  rw [hall, hout]
  refine ⟨?_, rfl⟩
  rcases Nat.lt_or_gt_of_ne hc with hc | hc
  · rw [List.getElem?_append_left hc]
  · rw [List.getElem?_eq_none (by simp; omega), List.getElem?_eq_none (by omega)]

/-- Handing out a sealed block that no bucket lists. -/
theorem Inv.allocated (h : Inv pool) {e : AllocEnv} {acts : List Outside}
    (hacts : acts.Sublist ((List.range' 0 (pool.bucket n).length).flatMap fun i => (e.attempt i).accesses))
    (hs : Sealed q b block) (hshape : Shaped block) (hn : block.payloadSize = n)
    (ha : AgreeOff b q (pool.interfere acts))
    (hunread : ∀ x, (pool.interfere acts).allBlocks[b]? = some x → x.control.readerState = 0#32)
    (horigin : if ∀ o ∈ pool.attempts e.attempt 0 (pool.bucket n), o = false then
        b = pool.allBlocks.length ∧ q.allBlocks.length = pool.allBlocks.length + 1
      else some b ∈ pool.bucket n ∧ q.allBlocks.length = pool.allBlocks.length)
    (hlists : ∀ m, (q.bucket m).Nodup ∧ some b ∉ q.bucket m ∧
      ∀ c, c ≠ some b → (c ∈ q.bucket m ↔ c ∈ pool.bucket m)) :
    Allocated pool n e (q.handOut b e) b ∧ Inv (q.handOut b e) := by
  obtain ⟨hb, hquiet, hagree, hfree⟩ := handOut_spec hs e
  have hbucket : ∀ m, (q.handOut b e).bucket m = q.bucket m := fun m => by unfold bucket; rw [hfree]
  have hshape' : Shaped (handedOut block e.uid) :=
    ⟨hshape.describes, hshape.mapped, hshape.length, hshape.small, hshape.pos⟩
  have hagree' := hagree.trans (ha.interfere _)
  rw [← interfere_append] at hagree'
  refine ⟨⟨⟨_, hb, hshape', rfl, hn, rfl, rfl, rfl⟩, hquiet, ?_, ⟨_, hacts.append (.refl _), hagree'⟩,
    fun m => ?_, ⟨acts, hunread⟩⟩, ?_⟩
  · rw [length_handOut]; exact horigin
  · rw [hbucket]; exact hlists m
  · refine (h.interfere _).of_agree hagree' (fun m => ?_) (fun m c hc => ?_) hb ?_ fun m => ?_
    · rw [hbucket]; exact (hlists m).1
    · rw [hbucket, bucket_interfere]; exact (hlists m).2.2 c hc
    · refine ⟨hshape', .zero, ?_, fun _ => hquiet⟩
      rw [hquiet]; exact Nat.zero_le _
    · rw [hbucket]
      exact ⟨fun hm => absurd hm (hlists m).2.1, fun hu => by cases hu.1⟩

theorem Inv.allocate_ok (h : Inv pool) {e : AllocEnv} (ha : pool.allocate n e = (pool', .ok b)) :
    Allocated pool n e pool' b ∧ Inv pool' := by
  unfold Pool.allocate at ha
  split at ha
  · cases ha
  rename_i hn
  obtain ⟨acts, hacts, ⟨hs, ho⟩ | ⟨j, b', block, hj, hb, hr, ho, hs⟩⟩ :=
    scan_spec e.attempt (pool.bucket n) pool 0
  · -- every attempt failed
    simp only [hs, allocateNew] at ha
    cases hc : (pool.interfere acts).createBlock n e.mapping with
    | mk p₁ r =>
      rw [hc] at ha
      cases r with
      | error x => cases ha
      | ok b₁ =>
        cases ha
        obtain ⟨nativeHandle, hseal, hagree⟩ := (h.interfere acts).created_sealed hc
        obtain ⟨hsmall, rfl, hfree, -, _, hall⟩ := createBlock_ok hc
        have hbucket : ∀ m, p₁.bucket m = pool.bucket m := fun m => by
          unfold bucket; rw [hfree, freeBlocks_interfere]
        refine h.allocated hacts hseal ⟨by simp [SharedBufferControlHeader.describes, created], rfl,
          List.length_replicate, hsmall, Nat.pos_of_ne_zero hn⟩ rfl hagree (fun x hx => ?_) ?_ fun m => ?_
        · simp at hx
        · rw [if_pos ho, hall, List.length_append, length_interfere]; exact ⟨rfl, rfl⟩
        · rw [hbucket]
          refine ⟨h.nodup m, fun hm => ?_, fun c _ => Iff.rfl⟩
          obtain ⟨x, hx, -⟩ := h.listed hm
          simp at hx
  · -- entry `j` was claimed
    rw [Nat.zero_add] at hs
    simp only [hs] at ha
    cases ha
    have hmem : some b ∈ pool.bucket n := List.mem_of_getElem? hj
    have hi := h.interfere acts
    have hst := hi.stored hb
    have hseal := hi.sealed hb hr
    have hlen : (takeEntry (modifyControl (pool.interfere acts) b fun _ =>
        { block.control with readerState := kSharedBufferReuseClaimed }) n j (pool.bucket n)).allBlocks.length =
          pool.allBlocks.length := (length_modifyControl _).trans (length_interfere _)
    refine h.allocated hacts ⟨hseal.get, hseal.quiet, hseal.refused⟩
      ⟨hst.describes, hst.mapped, hst.length, hst.small, hst.pos⟩
      (show block.payloadSize = n from hi.bucket_eq hb (by rw [bucket_interfere]; exact hmem))
      (fun c hc => AgreeOff.modifyControl _ _ c hc) (fun x hx => ?_) ?_ fun m => ?_
    · rw [hb] at hx; cases hx; exact hr
    · rw [if_neg fun hall => absurd (hall _ ho) (by decide)]
      exact ⟨hmem, hlen⟩
    · rw [bucket_takeEntry]
      have hbucket : (modifyControl (pool.interfere acts) b fun _ =>
          { block.control with readerState := kSharedBufferReuseClaimed }).bucket m = pool.bucket m :=
        (bucket_modifyBlock _ m).trans (bucket_interfere acts m)
      by_cases hm : m = n
      · subst hm
        rw [if_pos rfl]
        have hnd := nodup_swapRemove (h.nodup m) hj
        refine ⟨hnd.1, hnd.2, fun c hc => ?_⟩
        rw [mem_swapRemove (h.nodup m) hj]; simp [hc]
      · rw [if_neg hm, hbucket]
        refine ⟨h.nodup m, fun hb' => hm ?_, fun c _ => Iff.rfl⟩
        exact ((hi.bucket_eq hb (by rw [bucket_interfere]; exact hb')).symm.trans
          (hi.bucket_eq hb (by rw [bucket_interfere]; exact hmem)))

theorem Inv.allocate_error (h : Inv pool) {e : AllocEnv} {x : Exn}
    (ha : pool.allocate n e = (pool', .error x)) : Untouched pool n e pool' ∧ Inv pool' := by
  unfold Pool.allocate at ha
  split at ha
  · rename_i hn
    cases ha
    exact ⟨⟨fun hn' => absurd hn hn', ⟨[], List.nil_sublist _, rfl, rfl⟩, rfl⟩, h⟩
  obtain ⟨acts, hacts, ⟨hs, ho⟩ | ⟨j, b', block, hj, hb, hr, ho, hs⟩⟩ :=
    scan_spec e.attempt (pool.bucket n) pool 0
  · simp only [hs, allocateNew] at ha
    cases hc : (pool.interfere acts).createBlock n e.mapping with
    | mk p₁ r =>
      rw [hc] at ha
      cases r with
      | ok b₁ => cases ha
      | error x' =>
        cases ha
        obtain ⟨hall, hfree, hout⟩ := createBlock_error hc
        refine ⟨⟨fun _ => ho, ⟨acts, hacts.trans (List.sublist_append_left ..), hall, hout⟩,
          hfree.trans (freeBlocks_interfere acts)⟩, ?_⟩
        refine (h.interfere acts).of_blocks hfree (fun c hc => ⟨by rw [← hall]; exact hc, by rw [hout]⟩)
          fun c y hc => ?_
        rw [hall] at hc
        exact ⟨by rw [hout]; exact (h.interfere acts).stored hc, y, hc, rfl, rfl⟩
  · simp only [hs] at ha
    cases ha

/-- Block `b` exists and is in use. -/
def InUse (pool : Pool) (b : Nat) : Prop := ∃ block, pool.allBlocks[b]? = some block ∧ block.inUse = true

theorem Inv.fresh (h : Inv pool) {e : AllocEnv} (ha : Allocated pool n e pool' b) : ¬ pool.InUse b := by
  rintro ⟨x, hx, hu⟩
  have ho := ha.origin
  split at ho
  · rw [ho.1] at hx; simp at hx
  · exact h.not_listed hx hu ho.1

end Pool

end MemfdBuffer
