import MemfdBuffer.Atomic.Counting

/-!
# The grace period

`try_claim_block` tests `publish_timestamp_us` and then makes its CAS on another word; a refresh reads the
clock and then stores what it has read. Where no refresh falls between the load and the CAS, and none stores
a time that has passed, a block is claimed only after the grace period of every descriptor made for it. A
refresh in between is missed; a late one makes the descriptor look older than it is.
-/

namespace MemfdBuffer.Atomic

open Tally

/-- Action `a` is a claim CAS that succeeds on block `b`. -/
structure ClaimsBlock (w : World) (a : Act) (b : Nat) (blk : PhysBlock) : Prop where
  block : w.blocks[b]? = some blk
  zero : blk.control.readerState = 0#32
  pool : ∃ p uid size published made, a = .allocCas p uid ∧ w.pools p = .checked size b published made

/-- A claim comes after the grace period: of the header's stamp, and of every descriptor of the block. -/
def GraceKept (w : World) (a : Act) : Prop :=
  ∀ b blk, ClaimsBlock w a b blk →
    (blk.control.publishTimestampUs = 0 ∨
      blk.control.publishTimestampUs + kSharedBufferGracePeriodUs ≤ w.clock) ∧
    ∀ r ∈ w.descs, r.blk = b → r.time + kSharedBufferGracePeriodUs ≤ w.clock

/-- When the CAS succeeds, no descriptor of the block was made since its stamp was read. -/
def ClaimUndisturbed (w : World) : AllocPc → Prop
  | .checked _ b _ made => ∀ blk ∈ w.blocks[b]?, blk.control.readerState = 0#32 →
    ∀ r ∈ w.descs.drop made, r.blk ≠ b
  | _ => True

/-- The stamp a refresh is about to store is the present time. -/
def RefreshUndisturbed (w : World) : Option Task → Prop
  | some (.storeStamp _ _ _ now) => 0 < now ∧ now = w.clock
  | _ => True

/-- No refresh falls between the load and the CAS of an `allocate`; each stores the time at which it stores. -/
def Undisturbed (w : World) : Act → Prop
  | .allocCas p _ => ClaimUndisturbed w (w.pools p)
  | .task t _ => RefreshUndisturbed w w.tasks[t]?
  | _ => True

instance (w : World) : ∀ pc, Decidable (ClaimUndisturbed w pc)
  | .checked _ b _ made => inferInstanceAs (Decidable (∀ blk ∈ w.blocks[b]?,
      blk.control.readerState = 0#32 → ∀ r ∈ w.descs.drop made, r.blk ≠ b))
  | .idle | .scan _ | .loaded _ _ _ _ | .chosen _ _ | .uidCleared _ _ | .stampCleared _ _ => .isTrue trivial

instance (w : World) : ∀ k, Decidable (RefreshUndisturbed w k)
  | some (.storeStamp _ _ _ now) => inferInstanceAs (Decidable (0 < now ∧ now = w.clock))
  | none | some .done | some .threw | some (.validate _) | some (.recheck _ _ _) | some (.undo _)
  | some (.acquireLoad _ _) | some (.acquireCas _ _ _) | some (.teardown _ _) | some (.storeUid _ _ _)
  | some (.relayCheck _ _) | some (.readClock _ _ _) | some (.returned _ _) => .isTrue trivial

instance (w : World) : ∀ a, Decidable (Undisturbed w a)
  | .allocCas p _ => inferInstanceAs (Decidable (ClaimUndisturbed w (w.pools p)))
  | .task t _ => inferInstanceAs (Decidable (RefreshUndisturbed w w.tasks[t]?))
  | .tick _ | .allocBegin _ _ | .allocLoad _ _ | .allocTest _ | .allocCreate _ _ _ _ _ _ | .allocThrow _
  | .allocStoreUid _ | .allocStoreStamp _ | .allocDropClaim _ | .beginImport _ | .beginRead _
  | .beginHold _ | .beginPublish _ _ | .beginRelay _ | .newBuf | .moveBuf _ | .assignBuf _ _
  | .destroyBuf _ | .moveRead _ | .assignRead _ _ | .destroyRead _ | .writeByte _ _ _ | .readByte _ _
  | .readByteVia _ _ => .isTrue trivial

theorem Undisturbed.claim {w : World} {p size b published made : Nat} {uid : UInt64} {blk : PhysBlock}
    (h : Undisturbed w (.allocCas p uid)) (hp : w.pools p = .checked size b published made)
    (hb : w.blocks[b]? = some blk) (hz : blk.control.readerState = 0#32) :
    ∀ r ∈ w.descs.drop made, r.blk ≠ b := by
  simp only [Undisturbed, hp] at h
  exact h blk hb hz

theorem Undisturbed.refresh {w : World} {t i now : Nat} {spurious : Bool} {s : BufSlot}
    {d : SharedBufferDescriptor} (h : Undisturbed w (.task t spurious))
    (ht : w.tasks[t]? = some (.storeStamp i s d now)) : 0 < now ∧ now = w.clock := by
  simp only [Undisturbed, ht] at h
  exact h

/-- The block that `try_claim_block` looks at, the stamp it has read there and when. -/
def AllocPc.candidate : AllocPc → Option (Nat × Nat × Nat)
  | .loaded _ b published made | .checked _ b published made => some (b, published, made)
  | _ => none

/-- The time of a descriptor: old, or no later than the stamp in the header while the block is in no
`allocate`. -/
structure Stamped (w : World) (r : DescRec) : Prop where
  pos : 0 < r.time
  past : r.time ≤ w.clock
  old : r.time + kSharedBufferGracePeriodUs ≤ w.clock ∨ ∃ blk, w.blocks[r.blk]? = some blk ∧
    w.phase r.blk blk = none ∧ r.time ≤ blk.control.publishTimestampUs

structure StampsOk (w : World) : Prop where
  descs : ∀ r ∈ w.descs, Stamped w r
  checked : ∀ p size b published made, w.pools p = .checked size b published made →
    published = 0 ∨ published + kSharedBufferGracePeriodUs ≤ w.clock
  /-- What was read is in the header until a descriptor is made. -/
  read : ∀ p b published made, (w.pools p).candidate = some (b, published, made) →
    made ≤ w.descs.length ∧ ∀ blk, w.blocks[b]? = some blk → (∀ r ∈ w.descs.drop made, r.blk ≠ b) →
      blk.control.publishTimestampUs = published

/-- Where the stamp of a block comes from in a step. -/
inductive StampFrom (w : World) (a : Act) (w' : World) (b : Nat) (blk' : PhysBlock) : Prop
  | kept (blk : PhysBlock) (hb : w.blocks[b]? = some blk) (hp : blk'.pool = blk.pool)
      (ht : blk'.control.publishTimestampUs = blk.control.publishTimestampUs ∨ w.phase b blk ≠ none)
  | stamped (blk : PhysBlock) (t i now : Nat) (spurious : Bool) (s : BufSlot)
      (d : SharedBufferDescriptor) (r : DescRec) (ha : a = .task t spurious)
      (ht : w.tasks[t]? = some (.storeStamp i s d now)) (hi : w.holdsBuf i s)
      (hc : s.buf.control = some b) (hb : w.blocks[b]? = some blk) (hp : blk'.pool = blk.pool)
      (hd : w'.descs = w.descs ++ [r]) (hr : r.blk = b) (hn : blk'.control.publishTimestampUs = now)
  | fresh (hb : w.blocks[b]? = none)

section
variable {w w' : World} {a : Act}

/-- After an overwrite of one block. -/
theorem StampFrom.of_set {b c : Nat} {x x' blk' : PhysBlock} (hx : w.blocks[c]? = some x)
    (hb : (w.blocks.set c x')[b]? = some blk') (h : b = c → StampFrom w a w' c x') :
    StampFrom w a w' b blk' := by
  rcases get_set_cases hb with hb | ⟨rfl, rfl⟩
  · exact .kept blk' hb rfl (.inl rfl)
  · exact h rfl

theorem Step.stamps (h : Inv w) (hs : Step w a w') {b : Nat} {blk' : PhysBlock}
    (hb : w'.blocks[b]? = some blk') : StampFrom w a w' b blk' := by
  cases hs with
  | claim hp hx hr => exact .of_set hx hb fun _ => .kept _ hx rfl (.inl rfl)
  | create hp hl =>
    rcases get_append_cases hb with hb | ⟨rfl, rfl⟩
    · exact .kept _ hb rfl (.inl rfl)
    · exact .fresh (List.getElem?_eq_none (Nat.le_refl _))
  | clearUid hp hx => exact .of_set hx hb fun _ => .kept _ hx rfl (.inl rfl)
  | @clearStamp _ p c fresh x hp hx =>
    refine .of_set hx hb fun _ => .kept _ hx rfl (.inr ?_)
    obtain ⟨x', hx', hpool⟩ := hp ▸ h.pools p
    rw [hx] at hx'; cases hx'
    rw [World.phase, hpool, hp]
    simp [AllocPc.taking]
  | dropClaim hp hx => exact .of_set hx hb fun _ => .kept _ hx rfl (.inl rfl)
  | publish hs hd hx hl hn hname => exact .of_set hx hb fun _ => .kept _ hx rfl (.inl rfl)
  | write hs hd hx hu => exact .of_set hx hb fun _ => .kept _ hx rfl (.inl rfl)
  | acquireImport ht hx hr => exact .of_set hx hb fun _ => .kept _ hx rfl (.inl rfl)
  | acquireRead ht hx hr hs => exact .of_set hx hb fun _ => .kept _ hx rfl (.inl rfl)
  | acquireHold ht hx hr hs => exact .of_set hx hb fun _ => .kept _ hx rfl (.inl rfl)
  | undo ht hx => exact .of_set hx hb fun _ => .kept _ hx rfl (.inl rfl)
  | release ht hx => exact .of_set hx hb fun _ => .kept _ hx rfl (.inl rfl)
  | free ht hx hp => exact .of_set hx hb fun _ => .kept _ hx rfl (.inl rfl)
  | storeUid ht hs hc hx => exact .of_set hx hb fun _ => .kept _ hx rfl (.inl rfl)
  | storeStamp ht hs hc hx =>
    exact .of_set hx hb fun _ => .stamped _ _ _ _ _ _ _ _ rfl ht hs hc hx rfl rfl rfl rfl
  | _ => exact .kept _ hb rfl (.inl rfl)

/-- A descriptor is made with the stamp, and has the time of that step. -/
theorem Step.made (hs : Step w a w') {r : DescRec} (hr : r ∈ w'.descs) : r ∈ w.descs ∨
    r.time = w.clock ∧ ∃ blk t i now spurious s d, a = .task t spurious ∧
      w.tasks[t]? = some (.storeStamp i s d now) ∧ w.holdsBuf i s ∧ s.buf.control = some r.blk ∧
      w.blocks[r.blk]? = some blk ∧
      w'.blocks[r.blk]? = some (blk.withControl { blk.control with publishTimestampUs := now }) := by
  cases hs with
  | storeStamp ht hs hc hx =>
    rcases List.mem_append.1 hr with hr | hr
    · exact .inl hr
    · cases List.mem_singleton.1 hr
      exact .inr ⟨rfl, _, _, _, _, _, _, _, rfl, ht, hs, hc, hx, get_set_self hx⟩
  | _ => exact .inl hr

/-- A block enters an `allocate` only by a claim. -/
theorem Step.phase (hs : Step w a w') {b : Nat} {blk : PhysBlock} (hb : w.blocks[b]? = some blk)
    (hp : w.phase b blk = none) : w'.phase b blk = none ∨ ClaimsBlock w a b blk := by
  cases hs with
  | pool hm => exact .inl (World.phase_setPool_none hp fun h => hm.taking.trans h)
  | @claim p size c published made uid x hpc hx hr =>
    by_cases hc : c = b
    · subst hc
      rw [hx] at hb; cases hb
      exact .inr ⟨hx, hr, p, uid, size, published, made, rfl, hpc⟩
    · exact .inl (World.phase_setPool_none (w := w.setBlock _ _) hp fun _ => if_neg hc)
  | create hpc hl =>
    have hlt := (List.getElem?_eq_some_iff.1 hb).1
    exact .inl (World.phase_setPool_none (w := w.addBlock _) hp fun _ => if_neg (by omega))
  | @clearUid _ p c fresh x hpc hx =>
    refine .inl (World.phase_setPool_none (w := w.setBlock _ _) hp fun h => ?_)
    rw [show (w.setBlock c _).pools p = .chosen c fresh from hpc] at h
    exact if_neg fun hc => by simp [AllocPc.taking, hc] at h
  | @clearStamp _ p c fresh x hpc hx =>
    refine .inl (World.phase_setPool_none (w := w.setBlock _ _) hp fun h => ?_)
    rw [show (w.setBlock c _).pools p = .uidCleared c fresh from hpc] at h
    exact if_neg fun hc => by simp [AllocPc.taking, hc] at h
  | dropClaim hpc hx => exact .inl (World.phase_setPool_none (w := w.setBlock _ _) hp fun _ => rfl)
  | _ => exact .inl hp

theorem Step.clock (hs : Step w a w') : w.clock ≤ w'.clock := by
  cases hs with
  | tick => exact Nat.le_add_right _ _
  | _ => exact Nat.le_refl _

/-- A pool stays, moves without touching a block, or has no candidate any more. -/
theorem Step.pools (hs : Step w a w') (p : Nat) : w'.pools p = w.pools p ∨
    (PcMove w p (w.pools p) (w'.pools p) ∧ w'.descs = w.descs ∧ w'.blocks = w.blocks) ∨
      (w'.pools p).candidate = none := by
  have left : ∀ {q : Nat} {pc : AllocPc} {w₁ : World}, w₁.pools = w.pools → pc.candidate = none →
      (w₁.setPool q pc).pools p = w.pools p ∨ ((w₁.setPool q pc).pools p).candidate = none := by
    intro q pc w₁ hw hpc
    by_cases hq : p = q
    · rw [hq, World.setPool_self]
      exact .inr hpc
    · rw [World.setPool_ne hq, hw]
      exact .inl rfl
  cases hs with
  | @pool _ q pc hm =>
    by_cases hq : p = q
    · subst hq
      rw [World.setPool_self]
      exact .inr (.inl ⟨hm, rfl, rfl⟩)
    · exact .inl (World.setPool_ne hq)
  | claim hpc hx hr => exact (left rfl rfl).imp_right .inr
  | create hpc hl => exact (left rfl rfl).imp_right .inr
  | clearUid hpc hx => exact (left rfl rfl).imp_right .inr
  | clearStamp hpc hx => exact (left rfl rfl).imp_right .inr
  | dropClaim hpc hx => exact (left rfl rfl).imp_right .inr
  | _ => exact .inl rfl

theorem StampsOk.grace (h : StampsOk w) (hu : Undisturbed w a) : GraceKept w a := by
  intro b blk hc
  obtain ⟨p, uid, size, published, made, ha, hp⟩ := hc.pool
  subst ha
  have hts : blk.control.publishTimestampUs = published :=
    (h.read p b published made (by rw [hp]; rfl)).2 blk hc.block (hu.claim hp hc.block hc.zero)
  have hg := h.checked p size b published made hp
  refine ⟨by rw [hts]; exact hg, fun r hr hb => ?_⟩
  obtain ⟨hpos, -, hold | ⟨x, hx, -, hle⟩⟩ := h.descs r hr
  · exact hold
  · rw [hb, hc.block] at hx
    cases hx
    omega

/-- A refresh finds its block in no `allocate`. -/
theorem Inv.phase_of_holds (h : Inv w) {i b : Nat} {s : BufSlot} {blk : PhysBlock} (hs : w.holdsBuf i s)
    (hc : s.buf.control = some b) (hb : w.blocks[b]? = some blk) : w.phase b blk = none :=
  (h.blocks b blk hb).balanced.of_due (h.due_of_control hs hc)

theorem StampsOk.descs_next (hi : Inv w) (h : StampsOk w) (hu : Undisturbed w a) (hs : Step w a w') :
    ∀ r ∈ w'.descs, Stamped w' r := by
  have hclock := hs.clock
  intro r hr
  rcases hs.made hr with hr | ⟨htime, blk, t, i, now, spurious, s, d, ha, ht, hold, hc, hb, hb'⟩
  · obtain ⟨hpos, hpast, hold | ⟨blk, hb, hph, hle⟩⟩ := h.descs r hr
    · exact ⟨hpos, by omega, .inl (by omega)⟩
    · obtain ⟨blk', hb', hk⟩ := hs.keeps _ _ hb
      have hpool := hk.grows.pool
      rcases hs.phase hb hph with hph' | hcl
      · refine ⟨hpos, by omega, .inr ⟨blk', hb', by rw [World.phase, hpool]; exact hph', ?_⟩⟩
        cases hs.stamps hi hb' with
        | kept x hx hp ht =>
          rw [hb] at hx; cases hx
          rw [ht.resolve_right (not_not_intro hph)]
          exact hle
        | stamped x t i now spurious s d q ha ht hh hc hx hp hd hq hn =>
          subst ha
          rw [hn, (hu.refresh ht).2]
          exact hpast
        | fresh hx =>
          rw [hb] at hx
          cases hx
      · exact ⟨hpos, by omega, .inl (by have := (h.grace hu _ _ hcl).2 r hr rfl; omega)⟩
  · obtain ⟨hpos, hnow⟩ := (ha ▸ hu).refresh ht
    have hph := hi.phase_of_holds hold hc hb
    refine ⟨by omega, by omega, .inr ⟨_, hb', ?_, by show r.time ≤ now; omega⟩⟩
    rcases hs.phase hb hph with hph' | hcl
    · exact hph'
    · obtain ⟨p, uid, size, published, made, ha', -⟩ := hcl.pool
      rw [ha] at ha'; cases ha'

theorem StampsOk.checked_next (h : StampsOk w) (hs : Step w a w') {p size b published made : Nat}
    (hp : w'.pools p = .checked size b published made) :
    published = 0 ∨ published + kSharedBufferGracePeriodUs ≤ w'.clock := by
  have hclock := hs.clock
  rcases hs.pools p with hsame | ⟨hm, -, -⟩ | hnone
  · have := h.checked p size b published made (hsame.symm.trans hp)
    omega
  · rw [hp] at hm
    generalize w.pools p = old at hm
    cases hm with
    | pass hg =>
      have := withinGrace_eq_false.1 hg
      omega
  · rw [hp] at hnone
    cases hnone

/-- The candidate of a pool is a block of the pool, and in no `allocate`. -/
theorem Inv.of_candidate (h : Inv w) {p b published made : Nat}
    (hp : (w.pools p).candidate = some (b, published, made)) :
    ∃ blk, w.blocks[b]? = some blk ∧ w.phase b blk = none := by
  have ho := h.pools p
  cases hpc : w.pools p with
  | loaded size c ts n =>
    rw [hpc] at hp ho
    cases hp
    obtain ⟨blk, hb, hpool, -⟩ := ho
    exact ⟨blk, hb, by rw [World.phase, hpool, hpc]; rfl⟩
  | checked size c ts n =>
    rw [hpc] at hp ho
    cases hp
    obtain ⟨blk, hb, hpool, -⟩ := ho
    exact ⟨blk, hb, by rw [World.phase, hpool, hpc]; rfl⟩
  | idle | scan | chosen | uidCleared | stampCleared => rw [hpc] at hp; cases hp

theorem StampsOk.read_next (hi : Inv w) (h : StampsOk w) (hs : Step w a w') {p b published made : Nat}
    (hp : (w'.pools p).candidate = some (b, published, made)) :
    made ≤ w'.descs.length ∧ ∀ blk, w'.blocks[b]? = some blk → (∀ r ∈ w'.descs.drop made, r.blk ≠ b) →
      blk.control.publishTimestampUs = published := by
  have hdescs := hs.descs
  have old : (w.pools p).candidate = some (b, published, made) → made ≤ w'.descs.length ∧
      ∀ blk, w'.blocks[b]? = some blk → (∀ r ∈ w'.descs.drop made, r.blk ≠ b) →
        blk.control.publishTimestampUs = published := by
    intro hp
    obtain ⟨hlen, hread⟩ := h.read p b published made hp
    obtain ⟨x, hx, hph⟩ := hi.of_candidate hp
    refine ⟨Nat.le_trans hlen hdescs.length_le, fun blk' hb' hnone => ?_⟩
    cases hs.stamps hi hb' with
    | kept blk hb hpool ht =>
      rw [hb] at hx; cases hx
      rw [ht.resolve_right (not_not_intro hph)]
      exact hread x hb fun r hr => hnone r ((hdescs.drop made).subset hr)
    | stamped blk t i now spurious s d r ha ht hh hc hb hpool hd hr hn =>
      refine absurd hr (hnone r ?_)
      rw [hd, List.drop_append_of_le_length hlen]
      exact List.mem_append.2 (.inr (List.mem_singleton.2 rfl))
    | fresh hnone =>
      rw [hx] at hnone
      cases hnone
  rcases hs.pools p with hsame | ⟨hm, hd, hb⟩ | hnone
  · exact old (hsame ▸ hp)
  · generalize hq : w'.pools p = new at hm hp
    generalize ho : w.pools p = pc at hm old
    cases hm with
    | load hx hpool hu =>
      cases hp
      rw [hd, hb]
      refine ⟨Nat.le_refl _, fun blk hblk _ => ?_⟩
      rw [hx] at hblk; cases hblk
      rfl
    | pass hg => exact old hp
    | begin | graced | missed | threw => cases hp
  · rw [hp] at hnone
    cases hnone

theorem StampsOk.next (hi : Inv w) (h : StampsOk w) (hu : Undisturbed w a) (hs : Step w a w') :
    StampsOk w' :=
  ⟨h.descs_next hi hu hs, fun _ _ _ _ _ => h.checked_next hs, fun _ _ _ _ => h.read_next hi hs⟩

end

theorem StampsOk.reached {w : World} (h : Machine.ReachIf step Initial Undisturbed w) : StampsOk w :=
  Machine.ReachIf.inv_of (fun _ hr => Reachable.inv hr.reach)
    (fun _ ⟨_, hw⟩ => by
      subst hw
      refine ⟨fun r hr => ?_, fun p size b published made hp => ?_, fun p b published made hp => ?_⟩
      · cases hr
      · cases hp
      · cases hp)
    (fun _ _ _ hi hok hu hs => hok.next hi hu (step_sound hs)) h

/-- In a run in which no refresh disturbs an `allocate`, every claim keeps the grace period. -/
theorem grace_of_undisturbed {w : World} {a : Act} (h : Machine.ReachIf step Initial Undisturbed w)
    (hu : Undisturbed w a) : GraceKept w a :=
  (StampsOk.reached h).grace hu

/-- After `exchange` the import and then the publisher's buffer are destroyed, and the grace period
passes before pool `0` looks at the block. -/
def recycled : List Act :=
  exchange ++ [.destroyBuf 1, .task 2 false, .task 2 false, .destroyBuf 0, .task 3 false, .task 3 false,
    .tick 100000, .allocBegin 0 2, .allocLoad 0 0, .allocTest 0]

/-- The world after `recycled`. -/
def atClaim : World := (Machine.run step { clock := 5 } recycled).getD {}

theorem grace_of_undisturbed_recycled : ∃ blk, ClaimsBlock atClaim (.allocCas 0 10) 0 blk ∧
    GraceKept atClaim (.allocCas 0 10) :=
  ⟨_, ⟨rfl, rfl, 0, 10, 2, 5, 1, rfl, rfl⟩, grace_of_undisturbed
    (Machine.ReachIf.run (.start ⟨5, rfl⟩) (by decide)
      (show Machine.run step { clock := 5 } recycled = some atClaim from rfl)) (by decide)⟩

/-- As `recycled`, but the import is relayed and destroyed between the test and the CAS. -/
def raced : List Act :=
  exchange ++ [.destroyBuf 0, .task 2 false, .task 2 false, .tick 100000, .allocBegin 0 2,
    .allocLoad 0 0, .allocTest 0, .beginRelay 1, .task 3 false, .task 3 false, .task 3 false,
    .destroyBuf 1, .task 4 false, .task 4 false]

/-- The world after `raced`. -/
def atRacedClaim : World := (Machine.run step { clock := 5 } raced).getD {}

/-- The block is claimed in the microsecond in which a relay made a descriptor for it. -/
theorem grace_broken_raced : ∃ blk, Machine.run step { clock := 5 } raced = some atRacedClaim ∧
    (step atRacedClaim (.allocCas 0 10)).isSome = true ∧
    ClaimsBlock atRacedClaim (.allocCas 0 10) 0 blk ∧
    blk.control.publishTimestampUs = atRacedClaim.clock ∧ ¬ GraceKept atRacedClaim (.allocCas 0 10) := by
  have hc : ClaimsBlock atRacedClaim (.allocCas 0 10) 0 _ := ⟨rfl, rfl, 0, 10, 2, 5, 1, rfl, rfl⟩
  refine ⟨_, rfl, rfl, hc, rfl, fun h => ?_⟩
  exact absurd (h 0 _ hc).1 (by decide)

end MemfdBuffer.Atomic
