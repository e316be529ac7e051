import MemfdBuffer.Atomic.Objects

/-!
# The accounts in a step

What each step does to the reader word of a block, to the references due on it and to its visible
UID, and from it the invariant of all reachable worlds.
-/

namespace MemfdBuffer.Atomic

open Tally

namespace Balanced
variable {value : BitVec 32} {ready inUse : Bool} {phase : Option Taking} {refs owners : Nat}

/-- A reader is counted: the block is in no `allocate`. -/
theorem acquire (h : Balanced value ready inUse phase refs owners) (hready : ready = true)
    (hr : readerRefused value = false) : Balanced (value + 1#32) ready inUse phase (refs + 1) owners := by
  cases h with
  | counted hv h1 ho => exact .counted (hv.acquire hr) h1 ho
  | claimed hv => rw [hv, readerRefused_claimed] at hr; cases hr
  | fresh hv h1 hu => rw [h1] at hready; cases hready

theorem release (h : Balanced value ready inUse phase (refs + 1) owners) :
    Balanced (value - 1#32) ready inUse phase refs owners := by
  cases h with
  | counted hv h1 ho => exact .counted hv.leave h1 ho

theorem free (h : Balanced value ready inUse phase refs (owners + 1)) :
    Balanced value ready false phase refs owners := by
  cases h with
  | counted hv h1 ho =>
    refine .counted hv h1 ?_
    split at ho <;> simp_all

/-- The claim CAS. -/
theorem claim (h : Balanced value ready false none refs owners) (hv : value = 0#32) :
    Balanced kSharedBufferReuseClaimed ready true (some ⟨false, false⟩) refs owners := by
  cases h with
  | counted hr h1 ho =>
    have hz := hr.eq_zero_iff.1 hv
    subst hz
    simp only [Bool.false_eq_true, if_false] at ho
    subst ho
    exact .claimed rfl h1 rfl

theorem clear {fresh cleared : Bool} (h : Balanced value ready inUse (some ⟨fresh, cleared⟩) refs owners) :
    Balanced value ready inUse (some ⟨fresh, true⟩) refs owners := by
  cases h with
  | claimed h1 h2 h3 => exact .claimed h1 h2 h3
  | fresh h1 h2 h3 => exact .fresh h1 h2 h3

/-- The store of `0` that drops the claim meets no reader. -/
theorem drop {t : Taking} (h : Balanced value ready inUse (some t) refs owners) :
    Balanced 0#32 true inUse none refs (owners + 1) := by
  cases h with
  | claimed _ _ hu => exact .counted .zero rfl (by rw [hu]; rfl)
  | fresh _ _ hu => exact .counted .zero rfl (by rw [hu]; rfl)

end Balanced

section
variable {w w' : World} {a : Act}

theorem BlockOk.congr {b : Nat} {blk : PhysBlock} (h : BlockOk w b blk)
    (hp : w'.phase b blk = w.phase b blk) (hr : w'.refs b = w.refs b) (ho : w'.owners b = w.owners b) :
    BlockOk w' b blk :=
  ⟨by rw [hp, hr, ho]; exact h.balanced, h.recorded, by rw [hp]; exact h.visible⟩

/-- The accounts of `b` are the same in both worlds. -/
def SameDue (w w' : World) (b : Nat) : Prop := w'.refs b = w.refs b ∧ w'.owners b = w.owners b

theorem SameDue.of_due (h : ∀ f, (∀ tag, f (.custom tag) = 0) → w'.due f = w.due f) (b : Nat) :
    SameDue w w' b :=
  ⟨h _ (Effect.reader_custom b), h _ (Effect.owner_custom b)⟩

/-- A step that leaves the blocks and what is due alone. -/
theorem Inv.blocks_same (h : Inv w) (hb : w'.blocks = w.blocks)
    (hp : ∀ b blk, w'.phase b blk = w.phase b blk)
    (hd : ∀ f, (∀ tag, f (.custom tag) = 0) → w'.due f = w.due f) (b : Nat) (blk : PhysBlock)
    (hblk : w'.blocks[b]? = some blk) : BlockOk w' b blk := by
  rw [hb] at hblk
  have hs := SameDue.of_due hd b
  exact (h.blocks b blk hblk).congr (hp b blk) hs.1 hs.2

/-- A step that rewrites one block. -/
theorem Inv.blocks_set (h : Inv w) {b : Nat} {x x' : PhysBlock} (hx : w.blocks[b]? = some x)
    (hw : w'.blocks = w.blocks.set b x') (hp : ∀ c blk, c ≠ b → w'.phase c blk = w.phase c blk)
    (hd : ∀ c, c ≠ b → SameDue w w' c) (hb : BlockOk w b x → BlockOk w' b x') (c : Nat)
    (blk : PhysBlock) (hc : w'.blocks[c]? = some blk) : BlockOk w' c blk := by
  by_cases hcb : c = b
  · subst hcb
    rw [hw, get_set_self hx] at hc; cases hc
    exact hb (h.blocks _ _ hx)
  · rw [hw, List.getElem?_set_ne (Ne.symm hcb)] at hc
    exact (h.blocks c blk hc).congr (hp c blk hcb) (hd c hcb).1 (hd c hcb).2

theorem Recorded.control {blk : PhysBlock} {control : SharedBufferControlHeader} (h : Recorded blk)
    (hd : ∀ n, control.describes n = blk.control.describes n) : Recorded (blk.withControl control) :=
  ⟨by rw [← h.describes]; exact hd _, h.mapped, h.length, h.draws, h.current, h.nonzero⟩

/-- A reader of `b` is counted and is due back. -/
theorem Inv.blocks_acquire (h : Inv w) {b : Nat} {x : PhysBlock} (hx : w.blocks[b]? = some x)
    (hw : w'.blocks = w.blocks.set b (x.withControl
      { x.control with readerState := x.control.readerState + 1#32 }))
    (hp : w'.pools = w.pools) (hd : ∀ f, w'.due f = w.due f + f (.releaseReader b))
    (hready : x.ready = true) (hr : readerRefused x.control.readerState = false) :
    ∀ c blk, w'.blocks[c]? = some blk → BlockOk w' c blk := by
  have hph : ∀ c blk, w'.phase c blk = w.phase c blk := fun c blk => by rw [World.phase, hp]; rfl
  refine h.blocks_set hx hw (fun c blk _ => hph c blk) (fun c hc => ?_) fun ho => ?_
  · exact ⟨by simp [World.refs, hd, Ne.symm hc], by simp [World.owners, hd]⟩
  · have h1 : w'.refs b = w.refs b + 1 := by simp [World.refs, hd]
    have h2 : w'.owners b = w.owners b := by simp [World.owners, hd]
    refine ⟨?_, ho.recorded.control fun _ => rfl, ?_⟩
    · rw [hph, h1, h2]; exact ho.balanced.acquire hready hr
    · rw [hph]; exact ho.visible

/-- A reader of `b` that was due is given back. -/
theorem Inv.blocks_release (h : Inv w) {b : Nat} {x : PhysBlock} (hx : w.blocks[b]? = some x)
    (hw : w'.blocks = w.blocks.set b (x.withControl x.control.releaseReader))
    (hp : w'.pools = w.pools) (hd : ∀ f, w'.due f + f (.releaseReader b) = w.due f) :
    ∀ c blk, w'.blocks[c]? = some blk → BlockOk w' c blk := by
  have hph : ∀ c blk, w'.phase c blk = w.phase c blk := fun c blk => by rw [World.phase, hp]; rfl
  refine h.blocks_set hx hw (fun c blk _ => hph c blk) (fun c hc => ?_) fun ho => ?_
  · exact ⟨by simp [World.refs, ← hd, Ne.symm hc], by simp [World.owners, ← hd]⟩
  · have h1 : w.refs b = w'.refs b + 1 := by simp [World.refs, ← hd]
    have h2 : w.owners b = w'.owners b := by simp [World.owners, ← hd]
    have hb := ho.balanced
    rw [h1, h2] at hb
    refine ⟨?_, ho.recorded.control fun _ => rfl, ?_⟩
    · rw [hph]; exact hb.release
    · rw [hph]; exact ho.visible

/-- A step that rewrites a block without touching its reader word or what is due. -/
theorem Inv.blocks_write (h : Inv w) {b : Nat} {x x' : PhysBlock} (hx : w.blocks[b]? = some x)
    (hw : w'.blocks = w.blocks.set b x') (hp : w'.pools = w.pools)
    (hd : ∀ f, (∀ tag, f (.custom tag) = 0) → w'.due f = w.due f)
    (hb : x'.pool = x.pool ∧ x'.control.readerState = x.control.readerState ∧ x'.ready = x.ready ∧
      x'.inUse = x.inUse)
    (hr : Recorded x → Recorded x')
    (hv : BlockOk w b x → Visible x'.control.ipcUid x'.currentUid x'.published (w.phase b x)) :
    ∀ c blk, w'.blocks[c]? = some blk → BlockOk w' c blk := by
  have hph : ∀ c blk, w'.phase c blk = w.phase c blk := fun c blk => by rw [World.phase, hp]; rfl
  refine h.blocks_set hx hw (fun c blk _ => hph c blk) (fun c _ => .of_due hd c) fun ho => ?_
  obtain ⟨h1, h2, h3, h4⟩ := hb
  have hs := SameDue.of_due hd b
  have hpx : w'.phase b x' = w.phase b x := by rw [hph, World.phase, World.phase, h1]
  refine ⟨?_, hr ho.recorded, ?_⟩
  · rw [hpx, h2, h3, h4, hs.1, hs.2]; exact ho.balanced
  · rw [hpx]; exact hv ho

/-- A block that does not exist is not referred to. -/
theorem Inv.due_fresh (h : Inv w) {b : Nat} (hb : w.blocks[b]? = none) :
    w.refs b = 0 ∧ w.owners b = 0 := by
  have zero : ∀ f : Effect → Nat, (∀ e, EffectOk w e → f e = 0) → w.due f = 0 := by
    intro f hf
    have tl : ∀ es, (∀ e ∈ es, EffectOk w e) → tally f es = 0 := fun es hes =>
      tally_eq_zero fun i e he => hf e (hes e (List.mem_of_getElem? he))
    have h1 : tally (bufDue f) w.bufs = 0 := tally_eq_zero fun i o ho => by
      cases o with
      | none => rfl
      | some s => exact tl _ (h.bufs i s ho).effects
    have h2 : tally (readDue f) w.reads = 0 := tally_eq_zero fun i o ho => by
      cases o with
      | none => rfl
      | some s => exact tl _ (h.reads i s ho).effects
    have h3 : tally (Task.due f) w.tasks = 0 := tally_eq_zero fun t k ht => by
      have ho := h.tasks t k ht
      cases k with
      | recheck b j gen =>
        obtain ⟨r, blk, -, -, -, hb, hready, -⟩ := ho
        exact hf (.releaseReader b) ⟨blk, hb, hready⟩
      | undo b => exact hf (.releaseReader b) ho
      | teardown es after => exact tl es ho
      | _ => rfl
    rw [World.due, h1, h2, h3]
  have none_of : ∀ e, EffectOk w e → e.reader b = 0 ∧ e.owner b = 0 := by
    intro e he
    cases e with
    | releaseReader c =>
      obtain ⟨blk, hc, -⟩ := he
      have : c ≠ b := fun hcb => by rw [hcb, hb] at hc; cases hc
      simp [this]
    | poolFree c =>
      obtain ⟨blk, hc, -⟩ := he
      have : c ≠ b := fun hcb => by rw [hcb, hb] at hc; cases hc
      simp [this]
    | custom tag => simp
  exact ⟨zero _ fun e he => (none_of e he).1, zero _ fun e he => (none_of e he).2⟩

/-- The five steps of an `allocate` that has its block: `b` is rewritten, its phase moves on. -/
theorem Inv.blocks_take (h : Inv w) {p b : Nat} {pc pc' : AllocPc} {x x' : PhysBlock}
    (hpc : w.pools p = pc) (hx : w.blocks[b]? = some x) (hpool : x.pool = p)
    (hw : w'.blocks = w.blocks.set b x') (hp : w'.pools = (w.setPool p pc').pools)
    (hne : ∀ c, c ≠ b → pc.taking c = none ∧ pc'.taking c = none) (hpool' : x'.pool = p)
    (hd : ∀ c, c ≠ b → SameDue w w' c) (hr : Recorded x → Recorded x')
    (hb : Balanced x.control.readerState x.ready x.inUse (pc.taking b) (w.refs b) (w.owners b) →
      Balanced x'.control.readerState x'.ready x'.inUse (pc'.taking b) (w'.refs b) (w'.owners b))
    (hv : Visible x.control.ipcUid x.currentUid x.published (pc.taking b) →
      Visible x'.control.ipcUid x'.currentUid x'.published (pc'.taking b)) :
    ∀ c blk, w'.blocks[c]? = some blk → BlockOk w' c blk := by
  refine h.blocks_set hx hw (fun c blk hc => ?_) hd fun ho => ?_
  · have := @World.phase_setPool_of w p c blk pc'
      (by rw [hpc, (hne c hc).1, (hne c hc).2])
    rw [← this, World.phase, World.phase, hp]
  · have h1 : w.phase b x = pc.taking b := by rw [World.phase, hpool, hpc]
    have h2 : w'.phase b x' = pc'.taking b := by rw [World.phase, hp, hpool', World.setPool_self]
    have hbal := ho.balanced
    have hvis := ho.visible
    rw [h1] at hbal hvis
    exact ⟨by rw [h2]; exact hb hbal, hr ho.recorded, by rw [h2]; exact hv hvis⟩

theorem Inv.blocks_claim (h : Inv w) {p size b published made : Nat} {uid : UInt64} {blk : PhysBlock}
    (hp : w.pools p = .checked size b published made) (hb : w.blocks[b]? = some blk)
    (hr : blk.control.readerState = 0#32)
    (hw : w' = (w.setBlock b ((blk.taken uid).withControl
      { blk.control with readerState := kSharedBufferReuseClaimed })).setPool p (.chosen b false)) :
    ∀ c blk, w'.blocks[c]? = some blk → BlockOk w' c blk := by
  have ho := h.pools p
  rw [hp] at ho
  obtain ⟨blk', hb', hpool, hu⟩ := ho
  rw [hb] at hb'; cases hb'
  subst hw
  refine h.blocks_take hp hb hpool rfl rfl (fun c hc => ⟨rfl, if_neg (Ne.symm hc)⟩) hpool
    (fun c _ => ⟨rfl, rfl⟩) (fun hrec => ?_) (fun hbal => ?_) fun hvis => ?_
  · refine ⟨hrec.describes, hrec.mapped, hrec.length, ?_, ?_, fun u hm => ?_⟩
    · simp [PhysBlock.withControl, PhysBlock.taken, hrec.draws]
    · simp [PhysBlock.withControl, PhysBlock.taken, ← hrec.draws]
    · rcases List.mem_append.1 hm with hm | hm
      · exact hrec.nonzero u hm
      · rw [List.mem_singleton.1 hm]; exact drawUid_ne_zero uid
  · rw [hu] at hbal
    simp only [AllocPc.taking, if_true]
    exact hbal.claim hr
  · simp only [AllocPc.taking, if_true]
    exact .before rfl

theorem Inv.blocks_create (h : Inv w) {p size : Nat} {pid fd : Int} {id : UInt32} {payload : List UInt8}
    {uid : UInt64} (hp : w.pools p = .scan size) (hl : payload.length = size)
    (hw : w' = (w.addBlock (.created p pid fd id size payload uid)).setPool p
      (.chosen w.blocks.length true)) :
    ∀ c blk, w'.blocks[c]? = some blk → BlockOk w' c blk := by
  subst hw
  intro c blk hc
  rcases get_append_cases hc with hc | ⟨rfl, rfl⟩
  · have hlt := (List.getElem?_eq_some_iff.1 hc).1
    refine (h.blocks c blk hc).congr ?_ rfl rfl
    refine World.phase_setPool_of (w := w) ?_
    rw [hp]
    exact (if_neg (by omega)).symm
  · obtain ⟨h1, h2⟩ := h.due_fresh (b := w.blocks.length) (by simp)
    have hph : ((w.addBlock (.created p pid fd id size payload uid)).setPool p
        (.chosen w.blocks.length true)).phase w.blocks.length
          (.created p pid fd id size payload uid) = some ⟨true, false⟩ := by
      rw [World.phase_setPool_self (p := p) rfl]; exact if_pos rfl
    refine ⟨?_, ⟨?_, rfl, hl, rfl, rfl, ?_⟩, ?_⟩
    · rw [hph]
      show Balanced _ _ _ _ (w.refs _) (w.owners _)
      rw [h1, h2]; exact .fresh rfl rfl rfl
    · simp [SharedBufferControlHeader.describes, PhysBlock.created]
    · intro u hu; rw [List.mem_singleton.1 hu]; exact drawUid_ne_zero uid
    · rw [hph]; exact .before rfl

/-- A buffer over a block reads it or owns it. -/
theorem Inv.due_of_control (h : Inv w) {i b : Nat} {s : BufSlot} (hs : w.holdsBuf i s)
    (hc : s.buf.control = some b) : 0 < w.refs b ∨ 0 < w.owners b := by
  cases h.bufs i s hs with
  | empty he => rw [he] at hc; cases hc
  | own c blk lease hb hready hl he =>
    refine .inr (owners_pos_of_buf hs ?_ ?_) <;> rw [he] at hc ⊢ <;> cases hc <;> rfl
  | imported c j r blk lease hj hi hl he =>
    refine .inl (refs_pos_of_buf hs ?_ ?_) <;> rw [he] at hc ⊢ <;> cases hc <;> rfl

theorem Inv.ready_of_acquire (h : Inv w) {t b : Nat} {value : BitVec 32} {why : AcquireFor}
    {blk : PhysBlock} (ht : w.tasks[t]? = some (.acquireCas b value why))
    (hb : w.blocks[b]? = some blk) : blk.ready = true := by
  obtain ⟨blk', hb', hready⟩ := (h.tasks _ _ ht).ready
  rw [hb] at hb'; cases hb'
  exact hready

theorem Inv.blocks_step (h : Inv w) (hs : Step w a w') :
    ∀ b blk, w'.blocks[b]? = some blk → BlockOk w' b blk := by
  cases hs with
  | stay => exact h.blocks
  | tick => exact h.blocks_same rfl (fun _ _ => rfl) fun _ _ => rfl
  | pool hm => exact h.blocks_same rfl (fun _ _ => World.phase_setPool_of hm.taking.symm) fun _ _ => rfl
  | claim hp hb hr => exact h.blocks_claim hp hb hr rfl
  | create hp hl => exact h.blocks_create hp hl rfl
  | @clearUid _ p b fresh blk hp hb =>
    obtain ⟨blk', hb', hpool⟩ := hp ▸ h.pools p
    rw [hb] at hb'; cases hb'
    refine h.blocks_take hp hb hpool rfl rfl (fun c hc => ⟨if_neg (Ne.symm hc), if_neg (Ne.symm hc)⟩) hpool
      (fun c _ => ⟨rfl, rfl⟩) (fun hrec => hrec.control fun _ => rfl) ?_ ?_
    all_goals simp only [AllocPc.taking, if_true]
    · exact fun hbal => hbal.clear
    · intro hvis
      refine .zero rfl fun _ => ?_
      cases hvis with
      | zero _ hp => exact hp (by simp)
      | before hp => exact hp
  | @clearStamp _ p b fresh blk hp hb =>
    obtain ⟨blk', hb', hpool⟩ := hp ▸ h.pools p
    rw [hb] at hb'; cases hb'
    exact h.blocks_take hp hb hpool rfl rfl (fun c hc => ⟨if_neg (Ne.symm hc), if_neg (Ne.symm hc)⟩) hpool
      (fun c _ => ⟨rfl, rfl⟩) (fun hrec => hrec.control fun _ => rfl) id id
  | @dropClaim _ p b fresh blk hp hb =>
    obtain ⟨blk', hb', hpool⟩ := hp ▸ h.pools p
    rw [hb] at hb'; cases hb'
    have hdue : ∀ f, (((w.setBlock b { blk with control := blk.control.releaseReuseClaim, ready := true
        }).setPool p .idle).addBuf { buf := .allocated b blk.toSharedBufferBlock blk.payloadSize,
                                     gen := blk.gen }).due f = w.due f + f (.poolFree b) := fun f => by
      rw [World.due_addBuf]
      exact congrArg (w.due f + ·) (Nat.add_zero _)
    refine h.blocks_take hp hb hpool rfl rfl (fun c hc => ⟨if_neg (Ne.symm hc), rfl⟩) hpool
      (fun c hc => ?_) (fun hrec => ?_) ?_ ?_
    · exact ⟨by simp [World.refs, hdue], by simp [World.owners, hdue, Ne.symm hc]⟩
    · exact ⟨hrec.describes, hrec.mapped, hrec.length, hrec.draws, hrec.current, hrec.nonzero⟩
    · intro hbal
      simp only [AllocPc.taking, if_true] at hbal ⊢
      have hdrop : Balanced blk.control.releaseReuseClaim.readerState true blk.inUse none (w.refs b)
        (w.owners b + 1) := hbal.drop
      simpa [World.refs, World.owners, hdue] using hdrop
    · intro hvis
      simp only [AllocPc.taking, if_true] at hvis ⊢
      cases hvis with
      | zero hu _ => exact .zero hu (fun hn => absurd rfl hn)
  | begins hk => exact h.blocks_same rfl (fun _ _ => rfl) fun f _ => by simp [hk.due]
  | publish hs hd hb hl hn hname =>
    exact h.blocks_write hb rfl rfl (fun f _ => by simp [Task.due]) ⟨rfl, rfl, rfl, rfl⟩
      (fun hr => ⟨hr.describes, hr.mapped, hr.length, hr.draws, hr.current, hr.nonzero⟩)
      fun ho => ho.visible
  | readPlain hs hc =>
    exact h.blocks_same rfl (fun _ _ => rfl) fun f _ => by simp [ReadHandle.releaseEffects]
  | newBuf => exact h.blocks_same rfl (fun _ _ => rfl) fun f _ => by simp
  | moveBuf hs => exact h.blocks_same rfl (fun _ _ => rfl) fun f _ => World.due_moveBuf hs
  | tearBuf hs => exact h.blocks_same rfl (fun _ _ => rfl) fun f _ => World.due_tearBuf hs
  | moveRead hs => exact h.blocks_same rfl (fun _ _ => rfl) fun f _ => World.due_moveRead hs
  | tearRead hs => exact h.blocks_same rfl (fun _ _ => rfl) fun f _ => World.due_tearRead hs
  | write hs hd hb hu =>
    exact h.blocks_write hb rfl rfl (fun f _ => rfl) ⟨rfl, rfl, rfl, rfl⟩
      (fun hr => ⟨hr.describes, hr.mapped, by rw [← hr.length]; exact List.length_set, hr.draws,
        hr.current, hr.nonzero⟩)
      fun ho => ho.visible
  | sawBuf hs hj hd hb hv => exact h.blocks_same rfl (fun _ _ => rfl) fun f _ => rfl
  | sawRead hs hj hd hb hv => exact h.blocks_same rfl (fun _ _ => rfl) fun f _ => rfl
  | task ht hm =>
    exact h.blocks_same rfl (fun _ _ => rfl) fun f hf => World.due_setTask_eq ht _ (hm.due hf)
  | acquireImport ht hb hr =>
    refine h.blocks_acquire hb rfl rfl (fun f => ?_) (h.ready_of_acquire ht hb) hr
    exact World.due_setTask (f := f) (w := w.setBlock _ _) ht _
  | acquireRead ht hb hr hs =>
    refine h.blocks_acquire hb rfl rfl (fun f => ?_) (h.ready_of_acquire ht hb) hr
    refine (World.due_setTask_eq (w := (w.setBlock _ _).addRead _) ht .done rfl).trans ?_
    simp [ReadHandle.releaseEffects]
  | @acquireHold _ t b i s blk ht hb hr hs =>
    refine h.blocks_acquire hb rfl rfl (fun f => ?_) (h.ready_of_acquire ht hb) hr
    refine (World.due_setTask_eq (w := (w.setBlock _ _).setBuf _ _) ht .done rfl).trans ?_
    exact World.due_hold hs (h.tasks _ _ ht).why
  | @imported _ t b j gen r blk ht hj hb hu =>
    refine h.blocks_same rfl (fun _ _ => rfl) fun f _ => ?_
    have hset := World.due_setTask (w := w.addBuf { buf := .imported b r.d, gen := gen, src := some j })
      (f := f) ht .done
    have heff : tally f (SharedBuffer.imported b r.d).resetEffects = f (.releaseReader b) := Nat.add_zero _
    simp only [World.due_addBuf, heff, Task.due] at hset
    omega
  | undo ht hb =>
    refine h.blocks_release hb rfl rfl fun f => ?_
    exact World.due_setTask (f := f) (w := w.setBlock _ _) ht _
  | @release _ t b es after blk ht hb =>
    refine h.blocks_release hb rfl rfl fun f => ?_
    have hset := World.due_setTask (w := w.setBlock b (blk.withControl blk.control.releaseReader)) (f := f)
      ht (.teardown es after)
    simp only [Task.due, tally_cons, World.due_setBlock] at hset
    omega
  | @free _ t b es after blk ht hb hp =>
    have hdue : ∀ f, ((w.setBlock b { blk with inUse := false }).setTask t (.teardown es after)).due f +
        f (.poolFree b) = w.due f := fun f => by
      have hset := World.due_setTask (w := w.setBlock b { blk with inUse := false }) (f := f) ht
        (.teardown es after)
      simp only [Task.due, tally_cons, World.due_setBlock] at hset
      omega
    refine h.blocks_set hb rfl (fun _ _ _ => rfl) (fun c hc => ?_) fun ho => ?_
    · exact ⟨by simp [World.refs, ← hdue], by simp [World.owners, ← hdue, Ne.symm hc]⟩
    · have hbal := ho.balanced
      have h1 : w.refs b = ((w.setBlock b { blk with inUse := false }).setTask t
          (.teardown es after)).refs b := by simp [World.refs, ← hdue]
      have h2 : w.owners b = ((w.setBlock b { blk with inUse := false }).setTask t
          (.teardown es after)).owners b + 1 := by simp [World.owners, ← hdue]
      rw [h1, h2] at hbal
      have hrec := ho.recorded
      exact ⟨hbal.free, ⟨hrec.describes, hrec.mapped, hrec.length, hrec.draws, hrec.current,
        hrec.nonzero⟩, ho.visible⟩
  | finishBuf ht hs hd => exact h.blocks_same rfl (fun _ _ => rfl) fun f _ => World.due_finishBuf ht hs hd
  | finishRead ht hs hd => exact h.blocks_same rfl (fun _ _ => rfl) fun f _ => World.due_finishRead ht hs hd
  | @storeUid _ t i b s d blk ht hs hc hb =>
    refine h.blocks_write hb rfl rfl (fun f _ => World.due_setTask_eq (w := w.setBlock _ _) ht _ rfl)
      ⟨rfl, rfl, rfl, rfl⟩
      (fun hr => ⟨hr.describes, hr.mapped, hr.length, hr.draws, hr.current, hr.nonzero⟩)
      fun ho => ?_
    rw [ho.balanced.of_due (h.due_of_control hs hc)]
    exact .current rfl rfl
  | storeStamp ht hs hc hb =>
    exact h.blocks_write hb rfl rfl (fun f _ => World.due_setTask_eq (w := (w.setBlock _ _).addDesc _) ht _ rfl)
      ⟨rfl, rfl, rfl, rfl⟩
      (fun hr => ⟨hr.describes, hr.mapped, hr.length, hr.draws, hr.current, hr.nonzero⟩)
      fun ho => ho.visible

theorem Inv.next (h : Inv w) (hs : Step w a w') : Inv w' where
  blocks := h.blocks_step hs
  pools := h.pools_step hs
  descs := h.descs_step hs
  bufs := h.bufs_step hs
  reads := h.reads_step hs
  tasks := h.tasks_step hs

theorem Inv.initial (h : Initial w) : Inv w := by
  obtain ⟨clock, rfl⟩ := h
  refine ⟨?_, fun p => trivial, ?_, ?_, ?_, ?_⟩ <;> intro i x hx <;> cases hx

end

/-- The invariant holds in every reachable world. -/
theorem Reachable.inv {w : World} (h : Reachable w) : Inv w :=
  Machine.ReachIf.inv (fun _ => Inv.initial) (fun _ _ _ hi _ hs => hi.next (step_sound hs)) h

end MemfdBuffer.Atomic
