import MemfdBuffer.Atomic.Pinned

/-!
# The objects in a step

Each clause of `Inv` about descriptors, buffers, handles, calls and pools is kept: the objects that
stay by `Pinned`, the new ones by cases on the step.
-/

namespace MemfdBuffer.Atomic

open Tally

section
variable {w w' : World} {a : Act}

/-- The block a buffer points into. -/
theorem BufOk.of_control {s : BufSlot} {b : Nat} (h : BufOk w s) (hc : s.buf.control = some b) :
    ∃ blk, w.blocks[b]? = some blk ∧ blk.ready = true ∧ s.gen = blk.gen := by
  cases h with
  | empty he => rw [he] at hc; cases hc
  | own c blk lease hb hready hl he =>
    rw [he] at hc ⊢; cases hc
    exact ⟨blk, hb, hready, rfl⟩
  | imported c j r blk lease hj hi hl he =>
    rw [he] at hc; cases hc
    exact ⟨blk, hi.block, hi.ready, hi.gen⟩

theorem BufOk.effects {s : BufSlot} (h : BufOk w s) : ∀ e ∈ s.buf.resetEffects, EffectOk w e := by
  have lease : ∀ (b : Nat) (o : Option Nat), (∃ blk, w.blocks[b]? = some blk ∧ blk.ready = true) →
      (o = none ∨ o = some b) → ∀ e ∈ leaseEffects o, EffectOk w e := by
    rintro b o hb (rfl | rfl) e he
    · cases he
    · cases List.mem_singleton.1 he
      exact hb
  cases h with
  | empty he => rw [he]; simp
  | own b blk l hb hready hl he =>
    rw [he]
    intro e hm
    rcases List.mem_append.1 hm with hm | hm
    · exact lease b l ⟨blk, hb, hready⟩ hl e hm
    · cases List.mem_singleton.1 hm
      exact ⟨blk, hb, hready⟩
  | imported b j r blk l hj hi hl he =>
    rw [he]
    intro e hm
    rcases List.mem_append.1 hm with hm | hm
    · exact lease b l ⟨blk, hi.block, hi.ready⟩ hl e hm
    · cases List.mem_singleton.1 hm
      exact ⟨blk, hi.block, hi.ready⟩

theorem ReadOk.effects {s : ReadSlot} (h : ReadOk w s) :
    ∀ e ∈ s.handle.releaseEffects, EffectOk w e := by
  cases h with
  | empty he => rw [he]; simp
  | leased b blk owner hb hready hg he hs =>
    rw [he]
    intro e hm
    cases List.mem_singleton.1 hm
    exact ⟨blk, hb, hready⟩

/-- A buffer that returns its block to the pool was allocated there. -/
theorem BufOk.of_poolFree {s : BufSlot} {b : Nat} (h : BufOk w s) (hd : s.buf.deleter = .poolFree b) :
    ∃ blk, w.blocks[b]? = some blk ∧ blk.ready = true ∧ s.gen = blk.gen ∧ s.src = none ∧
      s.buf.dataPtr = some b ∧ s.buf.control = some b ∧ s.buf.size = blk.payloadSize := by
  cases h with
  | empty he => rw [he] at hd; cases hd
  | own c blk lease hb hready hl he =>
    rw [he] at hd ⊢; cases hd
    exact ⟨blk, hb, hready, rfl, rfl, rfl, rfl, rfl⟩
  | imported c j r blk lease hj hi hl he => rw [he] at hd; cases hd

/-- A buffer with an IPC descriptor was imported, and relays the descriptor it came from. -/
theorem BufOk.of_ipc {i : Nat} {s : BufSlot} (h : BufOk w s) (hs : w.holdsBuf i s)
    (hd : s.buf.hasIpcDescriptor = true) :
    ∃ b j r blk, w.descs[j]? = some r ∧ ImportOk w b s.gen r blk ∧ s.src = some j ∧
      s.buf.control = some b ∧ relayDescriptor s.buf = r.d ∧ 0 < w.refs b := by
  cases h with
  | empty he => rw [he] at hd; cases hd
  | own b blk lease hb hready hl he => rw [he] at hd; cases hd
  | imported b j r blk lease hj hi hl he =>
    refine ⟨b, j, r, blk, hj, hi, by rw [he], by rw [he]; rfl, ?_, ?_⟩
    · rw [he]; exact relayDescriptor_imported (b := b) hi.check.type
    · exact refs_pos_of_buf hs (by rw [he]; rfl) (by rw [he]; rfl)

theorem BufOk.withLease {s : BufSlot} {b : Nat} (h : BufOk w s) (hc : s.buf.control = some b) :
    BufOk w { s with buf := s.buf.withLease (some b) } := by
  cases h with
  | empty he => rw [he] at hc; cases hc
  | own c blk lease hb hready hl he =>
    rw [he] at hc ⊢; cases hc
    exact .own b blk (some b) hb hready (.inr rfl) rfl
  | imported c j r blk lease hj hi hl he =>
    rw [he] at hc; cases hc
    refine .imported b j r blk (some b) hj hi (.inr rfl) ?_
    rw [he]; rfl

/-- The handle that a counted reader is given. -/
theorem BufOk.readHandle {s : BufSlot} {b : Nat} (h : BufOk w s) (hc : s.buf.control = some b) :
    ReadOk w { handle := { dataPtr := s.buf.dataPtr, state := s.buf.handleState, readerLease := some b,
                           owner := s.buf.owner }
               gen := s.gen, src := s.src } := by
  cases h with
  | empty he => rw [he] at hc; cases hc
  | own c blk lease hb hready hl he =>
    rw [he] at hc ⊢; cases hc
    exact .leased b blk none hb hready rfl rfl (fun j hj => by cases hj)
  | imported c j r blk lease hj hi hl he =>
    have hsrc : s.src = some j := by rw [he]
    rw [he] at hc; cases hc
    refine .leased b blk (some b) hi.block hi.ready hi.gen (by rw [he]; rfl) fun j' hj' => ?_
    rw [show s.src = some j' from hj'] at hsrc; cases hsrc
    exact ⟨r, hj, hi⟩

theorem Inv.bufs_step (h : Inv w) (hs : Step w a w') (i : Nat) (s : BufSlot) (hi : w'.holdsBuf i s) :
    BufOk w' s := by
  have m := hs.follows h
  have old : ∀ k s, w.holdsBuf k s → BufOk w' s := fun k s hk => (h.bufs k s hk).next m hk
  cases hs with
  | @dropClaim _ p b fresh blk hp hb =>
    rcases get_append_cases hi with hi | ⟨-, hi⟩
    · exact old i s hi
    · cases hi
      exact .own b _ none (get_set_self hb) rfl (.inl rfl) rfl
  | newBuf =>
    rcases get_append_cases hi with hi | ⟨-, hi⟩
    · exact old i s hi
    · cases hi; exact .empty rfl
  | @moveBuf _ k s₀ hs₀ =>
    rcases get_append_cases hi with hi | ⟨-, hi⟩
    · rcases get_set_cases hi with hi | ⟨-, hi⟩
      · exact old i s hi
      · cases hi; exact .empty rfl
    · cases hi; exact old k s hs₀
  | @tearBuf _ k s₀ after hs₀ =>
    rcases get_set_cases hi with hi | ⟨-, hi⟩
    · exact old i s hi
    · cases hi
  | @acquireHold _ t b k s₀ blk ht hb hr hs₀ =>
    rcases get_set_cases hi with hi | ⟨-, hi⟩
    · exact old i s hi
    · cases hi
      exact (old k s₀ hs₀).withLease (h.tasks _ _ ht).why.1
  | @imported _ t b j gen r blk ht hj hb hu =>
    rcases get_append_cases hi with hi | ⟨-, hi⟩
    · exact old i s hi
    · cases hi
      obtain ⟨r', blk', hj', hrb, hc, hb', hready, hg⟩ := h.tasks _ _ ht
      rw [hj] at hj'; cases hj'
      rw [hb] at hb'; cases hb'
      exact .imported b j r blk none hj ⟨hb, hready, hg, hu, hrb, hc⟩ (.inl rfl) rfl
  | @finishBuf _ t dst src s₀ ht hs₀ hd =>
    rcases get_set_cases hi with hi | ⟨-, hi⟩
    · rcases get_set_cases hi with hi | ⟨-, hi⟩
      · exact old i s hi
      · cases hi; exact old src s hs₀
    · cases hi; exact .empty rfl
  | _ => exact old i s hi

theorem Inv.reads_step (h : Inv w) (hs : Step w a w') (i : Nat) (s : ReadSlot)
    (hi : w'.reads[i]? = some (some s)) : ReadOk w' s := by
  have m := hs.follows h
  have old : ∀ (k : Nat) s, w.reads[k]? = some (some s) → ReadOk w' s :=
    fun k s hk => (h.reads k s hk).next m hk
  cases hs with
  | @readPlain _ k s₀ hs₀ hc =>
    rcases get_append_cases hi with hi | ⟨-, hi⟩
    · exact old i s hi
    · cases hi
      cases h.bufs k s₀ hs₀ with
      | empty he => rw [he]; exact .empty rfl
      | own b blk lease hb hready hl he => rw [he] at hc; cases hc
      | imported b j r blk lease hj hi hl he => rw [he] at hc; cases hc
  | @moveRead _ k s₀ hs₀ =>
    rcases get_append_cases hi with hi | ⟨-, hi⟩
    · rcases get_set_cases hi with hi | ⟨-, hi⟩
      · exact old i s hi
      · cases hi; exact .empty rfl
    · cases hi; exact old k s hs₀
  | @tearRead _ k s₀ after hs₀ =>
    rcases get_set_cases hi with hi | ⟨-, hi⟩
    · exact old i s hi
    · cases hi
  | @acquireRead _ t b k s₀ blk ht hb hr hs₀ =>
    rcases get_append_cases hi with hi | ⟨-, hi⟩
    · exact old i s hi
    · cases hi
      exact BufOk.readHandle ((h.bufs k s₀ hs₀).next m hs₀) (h.tasks _ _ ht).why
  | @finishRead _ t dst src s₀ ht hs₀ hd =>
    rcases get_set_cases hi with hi | ⟨-, hi⟩
    · rcases get_set_cases hi with hi | ⟨-, hi⟩
      · exact old i s hi
      · cases hi; exact old src s hs₀
    · cases hi; exact .empty rfl
  | _ => exact old i s hi

theorem Inv.descs_step (h : Inv w) (hs : Step w a w') (j : Nat) (r : DescRec)
    (hj : w'.descs[j]? = some r) : ∃ blk, DescOk w' r blk := by
  have m := hs.follows h
  have old : ∀ (j : Nat) r, w.descs[j]? = some r → ∃ blk, DescOk w' r blk := fun j r hj => by
    obtain ⟨blk, ho⟩ := h.descs j r hj
    exact ho.next m
  cases hs with
  | @storeStamp t i b now _ s d blk ht hs₀ hc hb =>
    rcases get_append_cases hj with hj | ⟨-, hj⟩
    · exact old j r hj
    · cases hj
      obtain ⟨blk₀, hb₀, hready, hg⟩ := (h.bufs i s hs₀).of_control hc
      rw [hb] at hb₀; cases hb₀
      obtain ⟨b₁, blk₁, hp⟩ := h.tasks _ _ ht
      have hcb := hp.control
      rw [hc] at hcb; cases hcb
      have hbb := hp.block
      rw [hb] at hbb; cases hbb
      refine ⟨_, get_set_self hb, hready, ⟨hp.canon.path, hp.canon.uid, hp.canon.eq⟩, fun _ => ?_,
        fun j hj => ?_⟩
      · exact ⟨hp.published hg.symm, rfl⟩
      · obtain ⟨q, hq, hqb, hqd⟩ := hp.src j hj
        exact ⟨q, get_of_initial m.descs hq, hqb, hqd⟩
  | _ => exact old j r hj

theorem Begins.ok {k : Task} (h : Inv w) (hb : Begins w k) : TaskOk w k := by
  cases hb with
  | «import» hj hc => exact ⟨_, hj, checkDescriptor_ok.1 hc⟩
  | rejected => trivial
  | read hs hb =>
    obtain ⟨blk, hb', hready, -⟩ := (h.bufs _ _ hs).of_control hb
    exact ⟨⟨blk, hb', hready⟩, hb⟩
  | hold hs hb hl =>
    obtain ⟨blk, hb', hready, -⟩ := (h.bufs _ _ hs).of_control hb
    exact ⟨⟨blk, hb', hready⟩, hb, hl⟩
  | relay hs hd => exact hd
  | @nullptr i s hs hd =>
    cases h.bufs i s hs with
    | empty he => rw [he]; rfl
    | own b blk lease hb hready hl he => rw [he]; rfl
    | imported b j r blk lease hj hi hl he =>
      rw [he] at hd
      exact absurd (hi.check.hasIpcDescriptor (b := b)) (ne_true_of_eq_false hd)

/-- A relay is about to pass on the descriptor its buffer was imported from. -/
theorem BufOk.stamping {i : Nat} {s : BufSlot} (h : Inv w) (hs : w.holdsBuf i s)
    (hd : s.buf.hasIpcDescriptor = true) : ∃ b blk, Stamping w s (relayDescriptor s.buf) b blk := by
  obtain ⟨b, j, r, blk, hj, hi, hsrc, hc, hr, hn⟩ := (h.bufs i s hs).of_ipc hs hd
  rw [hr]
  refine ⟨b, blk, ⟨hc, hi.block, hi.canon h hn ⟨j, hj⟩, fun j' hj' => ?_⟩, fun _ => (hi.current h hn).2⟩
  rw [hsrc] at hj'; cases hj'
  exact ⟨r, hj, hi.blk, rfl⟩

/-- The header of a block that an import reads matches the buffer: a relay does not fall back. -/
theorem BufOk.relayAccepts {i b : Nat} {s : BufSlot} {blk : PhysBlock} (h : Inv w) (hs : w.holdsBuf i s)
    (hd : s.buf.hasIpcDescriptor = true) (hc : s.buf.control = some b) (hb : w.blocks[b]? = some blk) :
    relayAccepts s.buf blk.control = true := by
  obtain ⟨b', j, r, blk', hj, hi, -, hc', hr, hn⟩ := (h.bufs i s hs).of_ipc hs hd
  rw [hc] at hc'; cases hc'
  have hbb := hi.block
  rw [hb] at hbb; cases hbb
  have hsize : s.buf.size = blk.payloadSize := by
    have h1 : s.buf.size = r.d.size := congrArg SharedBufferDescriptor.size hr
    rw [h1, (hi.canon h hn ⟨j, hj⟩).eq, ownerDescriptor]
  have huid : s.buf.ipcUid = r.d.ipcUid := congrArg SharedBufferDescriptor.ipcUid hr
  rw [MemfdBuffer.relayAccepts, hsize, (h.blocks b blk hb).recorded.describes, hi.uid, huid]
  simp

theorem TaskMove.ok {t : Nat} {k k' : Task} (h : Inv w) (ht : w.tasks[t]? = some k)
    (hm : TaskMove w k k') : TaskOk w k' := by
  have ho := h.tasks t k ht
  cases hm with
  | @validated j r blk hj hb hv =>
    obtain ⟨r', hj', hc⟩ := ho
    rw [hj] at hj'; cases hj'
    obtain ⟨blk', hd⟩ := h.descs j r hj
    exact ⟨⟨blk', hd.block, hd.ready⟩, r, hj, rfl, hc⟩
  | invalid => trivial
  | loaded hb => exact ho
  | retry hb => exact ho
  | refused hr => trivial
  | stale =>
    obtain ⟨r, blk, -, -, -, hb, hready, -⟩ := ho
    exact ⟨blk, hb, hready⟩
  | custom => exact fun e he => ho e (List.mem_cons_of_mem _ he)
  | destroyed => trivial
  | relayed hs hc hb ha => exact BufOk.stamping h hs ho
  | @fellBack i b s blk hs hc hb ha =>
    rw [BufOk.relayAccepts h hs ho hc hb] at ha; cases ha
  | clock hs => exact ho

theorem Inv.tasks_step (h : Inv w) (hs : Step w a w') (t : Nat) (k : Task)
    (ht : w'.tasks[t]? = some k) : TaskOk w' k := by
  have m := hs.follows h
  have old : ∀ (t : Nat) k, w.tasks[t]? = some k → TaskOk w' k :=
    fun t k ht => (h.tasks t k ht).next m fun _ => refs_pos_of_task ht
  cases hs with
  | begins hk =>
    rcases get_append_cases ht with ht | ⟨-, ht⟩
    · exact old t k ht
    · cases ht; exact (hk.ok h).next m fun b hb => by rw [hk.due] at hb; cases hb
  | @publish _ i b s blk ipcName name hs hd hb hl hn hname =>
    rcases get_append_cases ht with ht | ⟨-, ht⟩
    · exact old t k ht
    · cases ht
      obtain ⟨blk', hb', -, hg, hsrc, -, hc, hsize⟩ := (h.bufs i s hs).of_poolFree hl
      rw [hb] at hb'; cases hb'
      refine ⟨hsrc, b, _, hc, get_set_self hb, ⟨hn, ?_, by rw [hsize]; rfl⟩, fun j hj => ?_⟩
      · rw [hg]; exact (h.blocks b blk hb).recorded.current
      · rw [hsrc] at hj; cases hj
  | @tearBuf _ i s after hs =>
    rcases get_append_cases ht with ht | ⟨-, ht⟩
    · exact old t k ht
    · cases ht; exact fun e he => ((h.bufs i s hs).effects e he).next m
  | @tearRead _ i s after hs =>
    rcases get_append_cases ht with ht | ⟨-, ht⟩
    · exact old t k ht
    · cases ht; exact fun e he => ((h.reads i s hs).effects e he).next m
  | task ht₀ hm =>
    rcases get_set_cases ht with ht | ⟨-, ht⟩
    · exact old t k ht
    · cases ht
      refine (hm.ok h ht₀).next m fun b hb => ?_
      rw [hm.due (Effect.reader_custom b)] at hb
      exact refs_pos_of_task ht₀ hb
  | @acquireImport _ t₀ b j blk ht₀ hb hr =>
    rcases get_set_cases ht with ht | ⟨-, ht⟩
    · exact old t k ht
    · cases ht
      obtain ⟨⟨blk', hb', hready⟩, r, hj, hrb, hc⟩ := h.tasks _ _ ht₀
      rw [hb] at hb'; cases hb'
      exact ⟨r, _, hj, hrb, hc, get_set_self hb, hready, rfl⟩
  | acquireRead ht₀ hb hr hs =>
    rcases get_set_cases ht with ht | ⟨-, ht⟩
    · exact old t k ht
    · cases ht; trivial
  | acquireHold ht₀ hb hr hs =>
    rcases get_set_cases ht with ht | ⟨-, ht⟩
    · exact old t k ht
    · cases ht; trivial
  | imported ht₀ hj hb hu =>
    rcases get_set_cases ht with ht | ⟨-, ht⟩
    · exact old t k ht
    · cases ht; trivial
  | undo ht₀ hb =>
    rcases get_set_cases ht with ht | ⟨-, ht⟩
    · exact old t k ht
    · cases ht; trivial
  | release ht₀ hb =>
    rcases get_set_cases ht with ht | ⟨-, ht⟩
    · exact old t k ht
    · cases ht; exact fun e he => (h.tasks _ _ ht₀ e (List.mem_cons_of_mem _ he)).next m
  | free ht₀ hb hp =>
    rcases get_set_cases ht with ht | ⟨-, ht⟩
    · exact old t k ht
    · cases ht; exact fun e he => (h.tasks _ _ ht₀ e (List.mem_cons_of_mem _ he)).next m
  | finishBuf ht₀ hs hd =>
    rcases get_set_cases ht with ht | ⟨-, ht⟩
    · exact old t k ht
    · cases ht; trivial
  | finishRead ht₀ hs hd =>
    rcases get_set_cases ht with ht | ⟨-, ht⟩
    · exact old t k ht
    · cases ht; trivial
  | @storeUid _ t₀ i b s d blk ht₀ hs hc hb =>
    rcases get_set_cases ht with ht | ⟨-, ht⟩
    · exact old t k ht
    · cases ht
      obtain ⟨hsrc, b', blk', hp⟩ := h.tasks _ _ ht₀
      have hcb := hp.control
      rw [hc] at hcb; cases hcb
      have hbb := hp.block
      rw [hb] at hbb; cases hbb
      refine ⟨b, _, ⟨hc, get_set_self hb, ⟨hp.canon.path, hp.canon.uid, hp.canon.eq⟩, fun j hj => ?_⟩,
        fun _ => rfl⟩
      rw [hsrc] at hj; cases hj
  | @storeStamp t₀ i b now _ s d blk ht₀ hs hc hb =>
    rcases get_set_cases ht with ht | ⟨-, ht⟩
    · exact old t k ht
    · cases ht
      exact ⟨_, List.getElem?_concat_length .., hc, rfl, rfl⟩
  | _ => exact old t k ht

theorem PcMove.ok {p : Nat} {pc pc' : AllocPc} (hm : PcMove w p pc pc') (ho : PcOk w p pc) :
    PcOk w p pc' := by
  cases hm with
  | begin => trivial
  | load hb hp hu => exact ⟨_, hb, hp, hu⟩
  | pass hg => exact ho
  | graced => trivial
  | missed => trivial
  | threw => trivial

theorem Inv.pools_step (h : Inv w) (hs : Step w a w') (p : Nat) : PcOk w' p (w'.pools p) := by
  have m := hs.follows h
  have old : w'.pools p = w.pools p → PcOk w' p (w'.pools p) := fun hp => (h.pools p).next m hp
  have move : ∀ {q : Nat} {pc : AllocPc} {w₁ : World}, w'.pools = (w₁.setPool q pc).pools →
      w₁.pools = w.pools → (q = p → PcOk w' p pc) → PcOk w' p (w'.pools p) := by
    intro q pc w₁ hw hw₁ hpc
    by_cases hq : q = p
    · rw [hw, hq, World.setPool_self]; exact hpc hq
    · exact old (by rw [hw, World.setPool_ne (Ne.symm hq), hw₁])
  cases hs with
  | @pool _ q pc hm =>
    refine move rfl rfl fun hq => ?_
    subst hq
    exact hm.ok (h.pools q)
  | @claim q size b published made uid blk hp hb hr =>
    refine move rfl rfl fun hq => ?_
    subst hq
    have ho := h.pools q
    rw [hp] at ho
    obtain ⟨blk', hb', hpool, -⟩ := ho
    rw [hb] at hb'; cases hb'
    exact ⟨_, get_set_self hb, hpool⟩
  | create hp hl =>
    refine move rfl rfl fun hq => ?_
    subst hq
    exact ⟨_, List.getElem?_concat_length .., rfl⟩
  | @clearUid _ q b fresh blk hp hb =>
    refine move rfl rfl fun hq => ?_
    subst hq
    have ho := h.pools q
    rw [hp] at ho
    obtain ⟨blk', hb', hpool⟩ := ho
    rw [hb] at hb'; cases hb'
    exact ⟨_, get_set_self hb, hpool⟩
  | @clearStamp _ q b fresh blk hp hb =>
    refine move rfl rfl fun hq => ?_
    subst hq
    have ho := h.pools q
    rw [hp] at ho
    obtain ⟨blk', hb', hpool⟩ := ho
    rw [hb] at hb'; cases hb'
    exact ⟨_, get_set_self hb, hpool⟩
  | dropClaim hp hb => exact move rfl rfl fun _ => trivial
  | _ => exact old rfl

end

end MemfdBuffer.Atomic
