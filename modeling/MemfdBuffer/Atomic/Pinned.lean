import MemfdBuffer.Atomic.Inv

/-!
# References pin their block

A block with a reader or an owner is not claimed (`Inv.pinned`), so nothing that refers to it goes
stale in a step: each clause of the invariant about an object that was there before the step holds of
it after the step.
-/

namespace MemfdBuffer.Atomic

open Tally

namespace Balanced
variable {value : BitVec 32} {ready inUse : Bool} {phase : Option Taking} {refs owners : Nat}

theorem of_refs (h : Balanced value ready inUse phase refs owners) (hn : 0 < refs) :
    phase = none ∧ Readers value refs := by
  cases h with
  | counted hr _ _ => exact ⟨rfl, hr⟩
  | claimed => omega
  | fresh => omega

theorem of_owners (h : Balanced value ready inUse phase refs owners) (hn : 0 < owners) :
    phase = none ∧ inUse = true ∧ owners = 1 := by
  cases h with
  | counted _ _ ho =>
    split at ho
    · rename_i hu; exact ⟨rfl, hu, ho⟩
    · omega
  | claimed => omega
  | fresh => omega

theorem of_taking {t : Taking} (h : Balanced value ready inUse (some t) refs owners) : refs = 0 := by
  cases h <;> rfl

/-- A block that is owned or read is in no `allocate`. -/
theorem of_due (h : Balanced value ready inUse phase refs owners) (hn : 0 < refs ∨ 0 < owners) :
    phase = none := by
  rcases hn with hn | hn
  · exact (h.of_refs hn).1
  · exact (h.of_owners hn).1

end Balanced

section
variable {w w' : World} {b : Nat} {blk blk' : PhysBlock}

theorem Inv.phase_of_claims (h : Inv w) (hc : Claims w w' b) (hb : w.blocks[b]? = some blk) :
    w.phase b blk = none ∧ blk.inUse = false := by
  obtain ⟨p, size, ts, n, hp, -⟩ := hc
  have hpc := h.pools p
  rw [hp] at hpc
  obtain ⟨blk₁, hb₁, hpool, hu⟩ := hpc
  rw [hb] at hb₁; cases hb₁
  exact ⟨by rw [World.phase, hpool, hp]; rfl, hu⟩

theorem Inv.phase_of_chosen (h : Inv w) {p : Nat} {fresh : Bool} (hp : w.pools p = .chosen b fresh)
    (hb : w.blocks[b]? = some blk) : w.phase b blk = some ⟨fresh, false⟩ := by
  have hpc := h.pools p
  rw [hp] at hpc
  obtain ⟨blk₁, hb₁, hpool⟩ := hpc
  rw [hb] at hb₁; cases hb₁
  rw [World.phase, hpool, hp]; exact if_pos rfl

/-- While a block is read or owned its generation lasts. -/
theorem Inv.pinned (h : Inv w) (hb : w.blocks[b]? = some blk) (hk : Keeps w w' b blk blk')
    (hn : 0 < w.refs b ∨ 0 < w.owners b) : blk'.gen = blk.gen := by
  rcases hk.gen with hg | ⟨hz, hc⟩
  · exact hg
  have ⟨_, hu⟩ := h.phase_of_claims hc hb
  have hbal := (h.blocks b blk hb).balanced
  rcases hn with hn | hn
  · have := ((hbal.of_refs hn).2.eq_zero_iff).1 hz
    omega
  · rw [(hbal.of_owners hn).2.1] at hu; cases hu

/-- While a block is read or owned its visible UID is not taken away. -/
theorem Inv.pinned_uid (h : Inv w) (hb : w.blocks[b]? = some blk) (hk : Keeps w w' b blk blk')
    (hn : 0 < w.refs b ∨ 0 < w.owners b) (hu : blk.control.ipcUid ≠ 0) :
    blk'.control.ipcUid = blk.control.ipcUid := by
  have hph := (h.blocks b blk hb).balanced.of_due hn
  rcases hk.uid with hk | ⟨p, fresh, hp⟩ | hk
  · exact hk
  · rw [h.phase_of_chosen hp hb] at hph; cases hph
  · have hv := (h.blocks b blk hb).visible
    rw [hph] at hv
    cases hv with
    | zero h0 _ => exact absurd h0 hu
    | current hc _ => rw [hk, hc]

theorem Canon.grows {gen : Nat} {d : SharedBufferDescriptor} (hg : Grows blk blk')
    (h : Canon blk gen d) : Canon blk' gen d where
  path := by rw [hg.path h.path]; exact h.path
  uid := get_of_initial hg.draws h.uid
  eq := by
    have := h.eq
    simp only [ownerDescriptor] at this ⊢
    rw [hg.payloadSize, hg.pid, hg.path h.path, hg.blockId, hg.mappedSize]; exact this

/-- A descriptor is of a generation the block has had. -/
theorem Canon.gen_le {gen : Nat} {d : SharedBufferDescriptor} (h : Canon blk gen d)
    (hr : Recorded blk) : gen ≤ blk.gen := by
  have := (List.getElem?_eq_some_iff.1 h.uid).1
  rw [hr.draws] at this; omega

/-- Two descriptors of one generation agree. -/
theorem Canon.unique {gen : Nat} {d d' : SharedBufferDescriptor} (h : Canon blk gen d)
    (h' : Canon blk gen d') : d = d' := by
  have hu : d.ipcUid = d'.ipcUid := Option.some.inj (h.uid.symm.trans h'.uid)
  rw [h.eq, h'.eq, hu]

end

/-! ### Objects that hold a reference -/

section
variable {w : World} {i b : Nat}

theorem refs_pos_of_buf {s : BufSlot} (hs : w.holdsBuf i s) (hp : s.buf.dataPtr = some b)
    (hd : s.buf.deleter = .releaseReader b) : 0 < w.refs b := by
  have hle := World.le_due_of_buf (f := Effect.reader b) hs
  rw [SharedBuffer.resetEffects, hp, hd] at hle
  simp [Deleter.effects, Effect.reader] at hle
  unfold World.refs; omega

theorem owners_pos_of_buf {s : BufSlot} (hs : w.holdsBuf i s) (hp : s.buf.dataPtr = some b)
    (hd : s.buf.deleter = .poolFree b) : 0 < w.owners b := by
  have hle := World.le_due_of_buf (f := Effect.owner b) hs
  rw [SharedBuffer.resetEffects, hp, hd] at hle
  simp [Deleter.effects, Effect.owner] at hle
  unfold World.owners; omega

theorem refs_pos_of_read {s : ReadSlot} (hs : w.reads[i]? = some (some s))
    (hl : s.handle.readerLease = some b) : 0 < w.refs b := by
  have hle := World.le_due_of_read (f := Effect.reader b) hs
  rw [ReadHandle.releaseEffects, hl] at hle
  simp [Effect.reader] at hle
  unfold World.refs; omega

theorem refs_pos_of_task {k : Task} (hs : w.tasks[i]? = some k) (hl : 0 < k.due (Effect.reader b)) :
    0 < w.refs b :=
  Nat.lt_of_lt_of_le hl (World.le_due_of_task hs)

/-- An import that holds a reader sees the current generation, published. -/
theorem ImportOk.current {gen : Nat} {r : DescRec} {blk : PhysBlock} (h : Inv w)
    (hi : ImportOk w b gen r blk) (hn : 0 < w.refs b) :
    blk.control.ipcUid = blk.currentUid ∧ blk.published = true := by
  have hbo := h.blocks b blk hi.block
  have hv := hbo.visible
  rw [(hbo.balanced.of_refs hn).1] at hv
  cases hv with
  | zero hu _ => exact absurd (hi.uid ▸ hu) hi.check.uid
  | current hu hp => exact ⟨hu, hp⟩

/-- The descriptor of an import describes the generation that it holds. -/
theorem ImportOk.canon {gen : Nat} {r : DescRec} {blk : PhysBlock} (h : Inv w)
    (hi : ImportOk w b gen r blk) (hn : 0 < w.refs b) (hd : ∃ j : Nat, w.descs[j]? = some r) :
    Canon blk gen r.d := by
  obtain ⟨j, hj⟩ := hd
  obtain ⟨blk', ho⟩ := h.descs j r hj
  have hb := ho.block
  rw [hi.blk, hi.block] at hb; cases hb
  refine ⟨ho.canon.path, ?_, ho.canon.eq⟩
  rw [hi.gen, ← hi.uid, (hi.current h hn).1]
  exact (h.blocks b blk hi.block).recorded.current

end

/-! ### Objects that stay -/

/-- What is known of two worlds a step apart. -/
structure Follows (w w' : World) : Prop where
  inv : Inv w
  keeps : KeepsAll w w'
  descs : w.descs <+: w'.descs

theorem Step.follows {w w' : World} {a : Act} (h : Inv w) (hs : Step w a w') : Follows w w' :=
  ⟨h, hs.keeps, hs.descs⟩

section
variable {w w' : World} (m : Follows w w')
include m

theorem DescOk.next {r : DescRec} {blk : PhysBlock} (ho : DescOk w r blk) :
    ∃ blk', DescOk w' r blk' := by
  obtain ⟨blk', hb', hkb⟩ := m.keeps _ _ ho.block
  have hle := ho.canon.gen_le (m.inv.blocks _ _ ho.block).recorded
  refine ⟨blk', hb', hkb.grows.ready ho.ready, ho.canon.grows hkb.grows, fun hg => ?_, fun j hj => ?_⟩
  · have := hkb.grows.gen
    obtain ⟨hp, hbytes⟩ := ho.bytes (by omega)
    obtain ⟨hp', hpay⟩ := hkb.published (by omega) hp
    exact ⟨hp', by rw [hpay, hbytes]⟩
  · obtain ⟨q, hq, hqb, hqd⟩ := ho.parent j hj
    exact ⟨q, get_of_initial m.descs hq, hqb, hqd⟩

theorem ImportOk.next {b gen : Nat} {r : DescRec} {blk : PhysBlock} (ho : ImportOk w b gen r blk)
    (hn : 0 < w.refs b) : ∃ blk', ImportOk w' b gen r blk' := by
  obtain ⟨blk', hb', hkb⟩ := m.keeps _ _ ho.block
  refine ⟨blk', hb', hkb.grows.ready ho.ready, ?_, ?_, ho.blk, ho.check⟩
  · rw [m.inv.pinned ho.block hkb (.inl hn), ho.gen]
  · rw [m.inv.pinned_uid ho.block hkb (.inl hn) ?_, ho.uid]
    rw [ho.uid]; exact ho.check.uid

/-- A block that was handed out stays. -/
theorem ready_next {b : Nat} (hb : ∃ blk, w.blocks[b]? = some blk ∧ blk.ready = true) :
    ∃ blk, w'.blocks[b]? = some blk ∧ blk.ready = true := by
  obtain ⟨blk, hb, hr⟩ := hb
  obtain ⟨blk', hb', hkb⟩ := m.keeps _ _ hb
  exact ⟨blk', hb', hkb.grows.ready hr⟩

theorem BufOk.next {i : Nat} {s : BufSlot} (hs : w.holdsBuf i s) (ho : BufOk w s) : BufOk w' s := by
  cases ho with
  | empty he => exact .empty he
  | own b blk lease hb hready hl he =>
    obtain ⟨blk', hb', hkb⟩ := m.keeps _ _ hb
    have hn : 0 < w.owners b := owners_pos_of_buf hs (by rw [he]; rfl) (by rw [he]; rfl)
    refine .own b blk' lease hb' (hkb.grows.ready hready) hl ?_
    rw [he, m.inv.pinned hb hkb (.inr hn)]
    simp only [SharedBuffer.allocated, hkb.grows.blockId, hkb.grows.mappedSize, hkb.grows.payloadSize]
  | imported b j r blk lease hj hi hl he =>
    have hn : 0 < w.refs b := refs_pos_of_buf hs (by rw [he]; rfl) (by rw [he]; rfl)
    obtain ⟨blk', hi'⟩ := hi.next m hn
    exact .imported b j r blk' lease (get_of_initial m.descs hj) hi' hl he

theorem ReadOk.next {i : Nat} {s : ReadSlot} (hs : w.reads[i]? = some (some s)) (ho : ReadOk w s) :
    ReadOk w' s := by
  cases ho with
  | empty he => exact .empty he
  | leased b blk owner hb hready hg he hsrc =>
    obtain ⟨blk', hb', hkb⟩ := m.keeps _ _ hb
    have hn : 0 < w.refs b := refs_pos_of_read hs (by rw [he])
    refine .leased b blk' owner hb' (hkb.grows.ready hready) ?_ he fun j hj => ?_
    · rw [m.inv.pinned hb hkb (.inl hn), hg]
    · obtain ⟨r, hr, hi⟩ := hsrc j hj
      obtain ⟨blk₁, hi'⟩ := hi.next m hn
      have hbb := hi'.block
      rw [hb'] at hbb; cases hbb
      exact ⟨r, get_of_initial m.descs hr, hi'⟩

theorem WhyOk.next {b : Nat} {why : AcquireFor} (ho : WhyOk w b why) : WhyOk w' b why := by
  refine ⟨ready_next m ho.ready, ?_⟩
  have hw := ho.why
  cases why with
  | importing j =>
    obtain ⟨r, hj, hb, hc⟩ := hw
    exact ⟨r, get_of_initial m.descs hj, hb, hc⟩
  | reading i s => exact hw
  | holding i s => exact hw

theorem Pending.next {s : BufSlot} {d : SharedBufferDescriptor} {b : Nat} {blk : PhysBlock}
    (ho : Pending w s d b blk) :
    ∃ blk', Pending w' s d b blk' ∧ Keeps w w' b blk blk' := by
  obtain ⟨blk', hb', hkb⟩ := m.keeps _ _ ho.block
  refine ⟨blk', ⟨ho.control, hb', ho.canon.grows hkb.grows, fun j hj => ?_⟩, hkb⟩
  obtain ⟨q, hq, hqb, hqd⟩ := ho.src j hj
  exact ⟨q, get_of_initial m.descs hq, hqb, hqd⟩

theorem Stamping.next {s : BufSlot} {d : SharedBufferDescriptor} {b : Nat} {blk : PhysBlock}
    (ho : Stamping w s d b blk) : ∃ blk', Stamping w' s d b blk' := by
  obtain ⟨blk', hp, hkb⟩ := ho.toPending.next m
  refine ⟨blk', hp, fun hg => ?_⟩
  have := ho.canon.gen_le (m.inv.blocks _ _ ho.block).recorded
  have := hkb.grows.gen
  exact (hkb.published (by omega) (ho.published (by omega))).1

theorem EffectOk.next {e : Effect} (ho : EffectOk w e) : EffectOk w' e := by
  cases e with
  | releaseReader b => exact ready_next m ho
  | poolFree b => exact ready_next m ho
  | custom tag => trivial

theorem TaskOk.next {k : Task} (hn : ∀ b, 0 < k.due (Effect.reader b) → 0 < w.refs b)
    (ho : TaskOk w k) : TaskOk w' k := by
  cases k with
  | done => trivial
  | threw => trivial
  | validate j =>
    obtain ⟨r, hj, hc⟩ := ho
    exact ⟨r, get_of_initial m.descs hj, hc⟩
  | recheck b j gen =>
    obtain ⟨r, blk, hj, hrb, hc, hb, hready, hg⟩ := ho
    obtain ⟨blk', hb', hkb⟩ := m.keeps _ _ hb
    have hn : 0 < w.refs b := hn b (by simp [Task.due, Effect.reader])
    refine ⟨r, blk', get_of_initial m.descs hj, hrb, hc, hb', hkb.grows.ready hready, ?_⟩
    rw [m.inv.pinned hb hkb (.inl hn), hg]
  | undo b => exact ready_next m ho
  | acquireLoad b why => exact WhyOk.next m ho
  | acquireCas b value why => exact WhyOk.next m ho
  | teardown es after => exact fun e he => (ho e he).next m
  | storeUid i s d =>
    obtain ⟨hs, b, blk, hp⟩ := ho
    obtain ⟨blk', hp', -⟩ := hp.next m
    exact ⟨hs, b, blk', hp'⟩
  | relayCheck i s => exact ho
  | readClock i s d =>
    obtain ⟨b, blk, hp⟩ := ho
    exact ⟨b, hp.next m⟩
  | storeStamp i s d now =>
    obtain ⟨b, blk, hp⟩ := ho
    exact ⟨b, hp.next m⟩
  | returned s result =>
    cases result with
    | none => exact ho
    | some k =>
      obtain ⟨r, hj, hc, hg, hpar⟩ := ho
      exact ⟨r, get_of_initial m.descs hj, hc, hg, hpar⟩

/-- A pool whose `allocate` has not moved. -/
theorem PcOk.next {p : Nat} (ho : PcOk w p (w.pools p)) (hp : w'.pools p = w.pools p) :
    PcOk w' p (w'.pools p) := by
  rw [hp]
  have free : ∀ size b ts n, w.pools p = .loaded size b ts n ∨ w.pools p = .checked size b ts n →
      (∃ blk, w.blocks[b]? = some blk ∧ blk.pool = p ∧ blk.inUse = false) →
      ∃ blk, w'.blocks[b]? = some blk ∧ blk.pool = p ∧ blk.inUse = false := by
    rintro size b ts n hpc ⟨blk, hb, hpool, hu⟩
    obtain ⟨blk', hb', hkb⟩ := m.keeps _ _ hb
    refine ⟨blk', hb', by rw [hkb.grows.pool, hpool], ?_⟩
    by_contra hu'
    rcases hkb.inUse (by simpa using hu') with hu' | ⟨q, size', ts', n', hq, hq'⟩
    · rw [hu] at hu'; cases hu'
    · have hqb := m.inv.pools q
      rw [hq] at hqb
      obtain ⟨blk₁, hb₁, hpool₁, -⟩ := hqb
      rw [hb] at hb₁; cases hb₁
      rw [hpool] at hpool₁; subst hpool₁
      rw [hp, hq] at hq'; cases hq'
  have busy : ∀ b : Nat, (∃ blk : PhysBlock, w.blocks[b]? = some blk ∧ blk.pool = p) →
      ∃ blk : PhysBlock, w'.blocks[b]? = some blk ∧ blk.pool = p := by
    rintro b ⟨blk, hb, hpool⟩
    obtain ⟨blk', hb', hkb⟩ := m.keeps _ _ hb
    exact ⟨blk', hb', by rw [hkb.grows.pool, hpool]⟩
  cases hpc : w.pools p with
  | idle => trivial
  | scan size => trivial
  | loaded size b ts n => rw [hpc] at ho; exact free _ _ _ _ (.inl hpc) ho
  | checked size b ts n => rw [hpc] at ho; exact free _ _ _ _ (.inr hpc) ho
  | chosen b fresh => rw [hpc] at ho; exact busy b ho
  | uidCleared b fresh => rw [hpc] at ho; exact busy b ho
  | stampCleared b fresh => rw [hpc] at ho; exact busy b ho

end

end MemfdBuffer.Atomic
