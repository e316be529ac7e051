import MemfdBuffer.Proc.Handles
import MemfdBuffer.Proc.Calls

/-!
# What the single calls do

One specification for each call on a buffer: what it answers, which objects it changes, and that it keeps
the invariant.
-/

namespace MemfdBuffer.Proc

open Slots

/-- The handle state of a buffer as its calls see it: a missing one is as good as a new one. -/
def World.stateOf (w : World) (x : SharedBuffer) : HandleState :=
  (x.handleState.bind fun n => w.states[n]?).getD {}

/-- `w₁` is `w` where the buffer `s` in slot `i` has been given its handle state `n`. -/
structure Readied (w : World) (i : Nat) (s : Buf) (w₁ : World) (n : Nat) : Prop where
  buf (k : Nat) : w₁.buf k =
    if k = i then some (s.withShared { s.shared with handleState := some n }) else w.buf k
  length : w₁.bufs.length = w.bufs.length
  states : w.states <+: w₁.states
  state : w₁.states[n]? = some (w.stateOf s.shared)
  pool : w₁.pool = w.pool
  reads : w₁.reads = w.reads
  writes : w₁.writes = w.writes

section
variable {w w' w₁ : World} {due : List Effect} {b n m i j k l : Nat} {s : Buf} {r : ReadHandle} {h : WriteHandle}
  {x y : SharedBuffer} {block : SharedBufferBlock}

theorem Inv.stateOf (hi : Inv w due) (hx : w.Holds x) (hn : x.handleState = some n) :
    w.states[n]? = some (w.stateOf x) := by
  have hlt := (hi.buffers hx).state hn
  rw [World.stateOf, hn, Option.bind_some, List.getElem?_eq_getElem hlt, Option.getD_some]

theorem World.handleState_spec (hi : Inv w due) (hs : w.buf i = some s) (he : w.handleState i s = (w₁, n)) :
    Readied w i s w₁ n ∧ Inv w₁ due := by
  unfold World.handleState at he
  cases hn : s.shared.handleState with
  | some m =>
    rw [hn] at he
    cases he
    refine ⟨⟨fun k => ?_, rfl, List.prefix_rfl, hi.stateOf (.buf hs) hn, rfl, rfl, rfl⟩, hi⟩
    split
    · rename_i hk
      rw [hk, hs, ← hn]; rfl
    · rfl
  | none =>
    rw [hn] at he
    cases he
    refine ⟨⟨fun k => buf_setBuf hs, by simp [makeState, setBuf], List.prefix_append .., ?_, rfl, rfl, rfl⟩,
      hi.makeState hs hn⟩
    rw [World.stateOf, hn]
    simp [makeState]

theorem Readied.self (h : Readied w i s w₁ n) :
    w₁.buf i = some (s.withShared { s.shared with handleState := some n }) := by rw [h.buf, if_pos rfl]

theorem Readied.holds (h : Readied w i s w₁ n) : w₁.Holds { s.shared with handleState := some n } :=
  .buf h.self

theorem World.makeLease_setState {state : HandleState} {control : Option Nat} :
    (w.setState n state).makeLease control = ((w.makeLease control).1.setState n state, (w.makeLease control).2) := by
  have hp : (w.setState n state).pool = w.pool := rfl
  cases control with
  | none => rfl
  | some b =>
    cases hq : w.pool.allBlocks[b]? >>= fun block => block.control.tryAcquireReader with
    | none => simp only [makeLease, hp, hq]
    | some header => simp only [makeLease, hp, hq]; rfl

theorem World.setState_setState {state state' : HandleState} :
    (w.setState n state).setState n state' = w.setState n state' := by
  simp [setState, List.set_set]

theorem World.setState_self {state : HandleState} (hn : w.states[n]? = some state) :
    w.setState n state = w := by
  obtain ⟨hlt, rfl⟩ := List.getElem?_eq_some_iff.1 hn
  simp [setState]

/-- A reader cannot be added to `x`. -/
def Refused (w : World) (x : SharedBuffer) : Prop :=
  ∃ b, x.control = some b ∧
    ∀ block, w.pool.allBlocks[b]? = some block → readerRefused block.control.readerState = true

/-- A read handle on slot `i` is refused, or it stands in a new slot with its own lease. -/
theorem World.getReadHandle_cases (hi : Inv w []) {res : Except Exn Nat}
    (he : w.getReadHandle i = some (w', res)) : ∃ s n w₁, w.buf i = some s ∧ Readied w i s w₁ n ∧ Inv w₁ [] ∧
      ((∃ x, res = .error x ∧ w' = w₁ ∧ ((w.stateOf s.shared).state = .inUse ∨ Refused w s.shared)) ∨
        (res = .ok w.reads.length ∧ (w.stateOf s.shared).state ≠ .inUse ∧ ∃ w₂,
          w₁.makeLease s.shared.control = (w₂, .ok s.shared.control) ∧
          w' = (w₂.setState n (w.stateOf s.shared).enter).addRead
            { dataPtr := s.shared.dataPtr, state := some n, readerLease := s.shared.control,
              owner := s.shared.owner })) := by
  unfold World.getReadHandle at he
  obtain ⟨s, hs, h₁⟩ := Option.bind_eq_some_iff.1 he
  clear he
  cases hh : w.handleState i s with
  | mk w₁ n =>
    obtain ⟨hready, hi₁⟩ := World.handleState_spec hi hs hh
    rw [hh] at h₁
    dsimp only at h₁
    obtain ⟨state, hst, h₂⟩ := Option.bind_eq_some_iff.1 h₁
    clear h₁
    rw [hready.state] at hst
    cases hst
    refine ⟨s, n, w₁, hs, hready, hi₁, ?_⟩
    split at h₂
    · rename_i hu
      cases h₂
      exact .inl ⟨_, rfl, rfl, .inl hu⟩
    · rename_i hu
      rw [makeLease_setState] at h₂
      cases hm : w₁.makeLease s.shared.control with
      | mk w₂ lease =>
        rw [hm] at h₂
        cases lease with
        | error x =>
          obtain ⟨rfl, b, hb, hr⟩ := makeLease_error hm
          cases h₂
          refine .inl ⟨_, rfl, ?_, .inr ⟨b, hb, fun block hblock => hr block (by rw [hready.pool]; exact hblock)⟩⟩
          rw [setState_setState]
          exact setState_self hready.state
        | ok lease =>
          obtain ⟨rfl, -⟩ := makeLease_ok hm
          cases h₂
          obtain ⟨pool, rfl⟩ := makeLease_frame hm
          refine .inr ⟨?_, hu, _, rfl, rfl⟩
          rw [← hready.reads]; rfl

theorem Inv.getReadHandle (hi : Inv w []) {res : Except Exn Nat} (he : w.getReadHandle i = some (w', res)) :
    Inv w' [] := by
  obtain ⟨s, n, w₁, hs, hready, hi₁, ⟨x, -, rfl, -⟩ | ⟨-, hne, w₂, hm, rfl⟩⟩ := World.getReadHandle_cases hi he
  · exact hi₁
  · have hi₂ := hi₁.makeLease hm
    obtain ⟨pool, rfl⟩ := World.makeLease_frame hm
    have hloc := hi₁.buffers hready.holds
    have hc : s.shared.control = s.shared.dataPtr := hloc.control
    rw [hc] at hi₂ ⊢
    exact hi₂.enterRead (x := { s.shared with handleState := some n }) hready.holds rfl hready.state hne

/-- A read handle just made, and the buffer it was made on. -/
theorem World.getReadHandle_slot (hi : Inv w []) (he : w.getReadHandle i = some (w', .ok j)) :
    ∃ s r, w'.read j = some r ∧ w'.buf i = some s ∧ r.promotedBuffer = none := by
  obtain ⟨s, n, w₁, hs, hready, -, ⟨x, hx, -⟩ | ⟨hj, -, w₂, hm, rfl⟩⟩ := World.getReadHandle_cases hi he
  · cases hx
  · cases hj
    obtain ⟨pool, rfl⟩ := World.makeLease_frame hm
    exact ⟨_, _, read_addRead.trans (if_pos (by rw [← hready.reads]; rfl)), hready.self, rfl⟩

/-- A write handle on slot `i` is refused, or it stands in a new slot. -/
theorem World.getWriteHandle_cases (hi : Inv w []) {res : Except Exn Nat}
    (he : w.getWriteHandle i = some (w', res)) : ∃ s, w.buf i = some s ∧
      ((∃ x, res = .error x ∧ w' = w ∧ (s.shared.dataPtr = none ∨ s.shared.size = 0)) ∨
        ∃ n w₁, Readied w i s w₁ n ∧ Inv w₁ [] ∧
          ((∃ x, res = .error x ∧ w' = w₁ ∧
              ((w.stateOf s.shared).state ≠ .unset ∨ (w.stateOf s.shared).activeReaders ≠ 0)) ∨
            (res = .ok w.writes.length ∧ (w.stateOf s.shared).state = .unset ∧
              (w.stateOf s.shared).activeReaders = 0 ∧ s.shared.dataPtr ≠ none ∧
              w' = (w₁.setState n { w.stateOf s.shared with state := .inUse }).addWrite
                { dataPtr := s.shared.dataPtr, state := some n, owner := s.shared.owner }))) := by
  unfold World.getWriteHandle at he
  obtain ⟨s, hs, h₁⟩ := Option.bind_eq_some_iff.1 he
  clear he
  refine ⟨s, hs, ?_⟩
  rw [if_neg (by rw [(hi.buffers (.buf hs)).writable]; decide)] at h₁
  split at h₁
  · rename_i hempty
    cases h₁
    exact .inl ⟨_, rfl, rfl, hempty⟩
  · rename_i hempty
    push Not at hempty
    right
    cases hh : w.handleState i s with
    | mk w₁ n =>
      obtain ⟨hready, hi₁⟩ := World.handleState_spec hi hs hh
      rw [hh] at h₁
      dsimp only at h₁
      obtain ⟨state, hst, h₂⟩ := Option.bind_eq_some_iff.1 h₁
      clear h₁
      rw [hready.state] at hst
      cases hst
      refine ⟨n, w₁, hready, hi₁, ?_⟩
      split at h₂
      · rename_i hu
        cases h₂
        exact .inl ⟨_, rfl, rfl, .inl (by rw [hu]; decide)⟩
      · rename_i hu
        cases h₂
        exact .inl ⟨_, rfl, rfl, .inl (by rw [hu]; decide)⟩
      · rename_i hu
        split at h₂
        · rename_i hr
          cases h₂
          exact .inl ⟨_, rfl, rfl, .inr hr⟩
        · rename_i hr
          cases h₂
          exact .inr ⟨by rw [hready.writes], hu, not_not.1 hr, hempty.1, rfl⟩

theorem Inv.getWriteHandle (hi : Inv w []) {res : Except Exn Nat} (he : w.getWriteHandle i = some (w', res)) :
    Inv w' [] := by
  obtain ⟨s, hs, ⟨x, -, rfl, -⟩ | ⟨n, w₁, hready, hi₁, ⟨x, -, rfl, -⟩ | ⟨-, hu, hr, -, rfl⟩⟩⟩ :=
    World.getWriteHandle_cases hi he
  · exact hi
  · exact hi₁
  · exact hi₁.startWrite (x := { s.shared with handleState := some n }) hready.holds rfl hready.state hu hr

/-! ### Buffers from the pool -/

theorem Inv.interfere (hi : Inv w due) (acts : List Outside) : Inv (w.withPool (w.pool.interfere acts)) due := by
  induction acts generalizing w with
  | nil => exact hi
  | cons act acts ih => exact ih (hi.outside act)

theorem Inv.owners_eq_zero (hi : Inv w due) (hb : w.pool.allBlocks[b]? = none) : w.owners b = 0 := by
  by_contra hpos
  obtain ⟨x, hx, hp⟩ := World.exists_of_bufSum_pos (Nat.pos_of_ne_zero hpos)
  obtain ⟨block, hblock, -⟩ := (hi.buffers hx).block (points_pos.1 hp)
  rw [hb] at hblock; cases hblock

theorem Inv.leases_eq_zero (hi : Inv w due) (hb : w.pool.allBlocks[b]? = none) : w.leases b = 0 := by
  have h1 : w.bufSum (points (·.heldReaderLease) b) = 0 := by
    by_contra hpos
    obtain ⟨x, hx, hp⟩ := World.exists_of_bufSum_pos (Nat.pos_of_ne_zero hpos)
    have hl := points_pos.1 hp
    rcases (hi.buffers hx).lease with h | h
    · rw [h] at hl; cases hl
    · obtain ⟨block, hblock, -⟩ := (hi.buffers hx).block (h ▸ hl)
      rw [hb] at hblock; cases hblock
  have h2 : total (points (·.readerLease) b) w.reads = 0 := total_eq_zero fun j r hr => points_eq_zero fun hl => by
    have hok := hi.reads hr
    obtain ⟨block, hblock⟩ := hok.block (hok.lease ▸ hl)
    rw [hb] at hblock; cases hblock
  unfold World.leases; omega

/-- Nobody here reads a block when it is allocated, and nobody holds it. -/
theorem Inv.unread (hi : Inv w []) {pool : Pool} {env : AllocEnv} (ha : Pool.Allocated w.pool n env pool b) :
    w.leases b = 0 ∧ w.owners b = 0 := by
  cases hb : w.pool.allBlocks[b]? with
  | none => exact ⟨hi.leases_eq_zero hb, hi.owners_eq_zero hb⟩
  | some x =>
    constructor
    · obtain ⟨acts, hunread⟩ := ha.unread
      obtain ⟨f, hf, -⟩ := (@Pool.get_interfere w.pool) acts b
      rw [hb, Option.map_some] at hf
      have hl := (hi.interfere acts).leased hf
      rw [hunread _ hf] at hl
      have : (w.withPool (w.pool.interfere acts)).leases b = w.leases b := rfl
      have h0 : (0#32).toNat = 0 := rfl
      omega
    · have ho := hi.owned hb
      have hu : ¬ x.inUse = true := fun hu => hi.pool.fresh ha ⟨x, hb, hu⟩
      rw [if_neg hu] at ho; omega

/-- The block of a new buffer is taken out of the pool before the buffer is there. -/
theorem Inv.takeBlock (hi : Inv w []) {pool : Pool} {env : AllocEnv}
    (he : w.pool.allocate n env = (pool, .ok b)) : Inv (w.withPool pool) [.poolFree b] := by
  obtain ⟨ha, hp⟩ := hi.pool.allocate_ok he
  obtain ⟨block, hb, -, hu, hn, -, -, hr⟩ := ha.block
  obtain ⟨acts, -, hagree⟩ := ha.others
  have hi' := hi.interfere acts
  obtain ⟨hleases, howners⟩ := hi.unread ha
  refine hi.withPool hp (fun c x hx => ?_) (fun c y hy => ?_) fun c y hy => ?_
  · by_cases hc : c = b
    · subst hc
      refine ⟨block, hb, ?_⟩
      have ho := ha.origin
      split at ho
      · rw [ho.1] at hx; simp at hx
      · rw [hn, hi.pool.bucket_eq hx ho.1]
    · obtain ⟨f, hf, hcontrol⟩ := (@Pool.get_interfere w.pool) acts c
      rw [hx, ← (hagree c hc).1] at hf
      obtain ⟨control, he⟩ := hcontrol x
      exact ⟨_, hf, by rw [he]; rfl⟩
  · by_cases hc : c = b
    · subst hc
      rw [hb] at hy; cases hy
      rw [hu, howners]; simp
    · rw [(hagree c hc).1] at hy
      have ho := hi'.owned hy
      rw [← ho, List.count_cons_of_ne (by simpa using Ne.symm hc)]; rfl
  · rw [List.count_cons_of_ne (by simp)]
    by_cases hc : c = b
    · subst hc
      rw [hb] at hy; cases hy
      rw [hr, ha.quiet, hleases]; rfl
    · rw [(hagree c hc).1] at hy
      rw [(hagree c hc).2]
      exact hi'.leased hy

/-- A new buffer takes its block. -/
theorem Inv.placeBuf (hi : Inv w [.poolFree b]) {block : SharedBufferBlock} {elem size : Nat} (helem : 0 < elem)
    (hb : w.pool.allBlocks[b]? = some block) (hleases : w.leases b = 0) :
    Inv (w.addBuf ⟨elem, size, SharedBuffer.allocated b block block.payloadSize⟩) [] := by
  have hsum : ∀ f : SharedBuffer → Nat,
      (w.addBuf ⟨elem, size, SharedBuffer.allocated b block block.payloadSize⟩).bufSum f =
        w.bufSum f + f (SharedBuffer.allocated b block block.payloadSize) := fun f => World.bufSum_addBuf
  have hholds : ∀ x, (w.addBuf ⟨elem, size, SharedBuffer.allocated b block block.payloadSize⟩).Holds x →
      x = SharedBuffer.allocated b block block.payloadSize ∨ w.Holds x := by
    rintro x (⟨i, s, hs, rfl⟩ | hx)
    · rw [World.buf_addBuf] at hs
      split at hs
      · cases hs; exact .inl rfl
      · exact .inr (.buf hs)
    · exact .inr (.inr hx)
  refine ⟨hi.pool, fun hs => ?_, fun hx => ?_, fun hr => (hi.reads hr).congr (fun b x hb => ⟨x, hb⟩) le_rfl,
    fun hl => (hi.writes hl).congr (fun b x hb => ⟨x, hb⟩) le_rfl, fun {c y} hc => ?_, fun {c y} hc => ?_,
    hi.states, fun m => ?_, fun {j r x} hr hx hne he => ?_, fun hl hx hne he => ?_⟩
  · rw [World.buf_addBuf] at hs
    split at hs
    · cases hs; exact helem
    · exact hi.elem hs
  · rcases hholds _ hx with rfl | hx
    · exact ⟨rfl, rfl, rfl, rfl, rfl, .inl rfl, fun he => by cases he; exact ⟨block, hb, rfl⟩,
        (by intro he; cases he), (by intro n he; cases he)⟩
    · exact (hi.buffers hx).congr (fun b x hb => ⟨x, hb, rfl⟩) le_rfl
  · have ho := hi.owned hc
    unfold World.owners at ho ⊢
    rw [hsum, ← ho, List.count_singleton]
    by_cases hbc : b = c <;> simp [points, SharedBuffer.allocated, hbc]
  · have hl := hi.leased hc
    have h0 : points (fun x : SharedBuffer => x.heldReaderLease) c
        (SharedBuffer.allocated b block block.payloadSize) = 0 := points_eq_zero (by intro he; cases he)
    unfold World.leases at hl ⊢
    rw [hsum, h0]
    rw [List.count_cons_of_ne (by simp)] at hl
    exact hl
  · have h0 : points (fun x : SharedBuffer => x.handleState) m
        (SharedBuffer.allocated b block block.payloadSize) = 0 := points_eq_zero (by intro he; cases he)
    unfold World.sharers
    rw [hsum, h0]
    exact hi.sharers m
  · rcases hholds _ hx with rfl | hx
    · have hl : r.readerLease = some b := (hi.reads hr).lease.trans he.symm
      have := le_total (f := points (·.readerLease) b) (show w.read j = some r from hr)
      rw [points_eq_one hl] at this
      unfold World.leases at hleases; omega
    · exact hi.readBound hr hx hne he
  · rcases hholds _ hx with rfl | hx
    · exact absurd he.symm ((hi.writes hl).bound hne)
    · exact hi.writeBound hl hx hne he

theorem byteCount_ok {elem count bytes : Nat} (h : byteCount elem count = .ok bytes) : bytes = count * elem := by
  unfold byteCount at h
  split at h
  · cases h
  · cases h; rfl

/-- `allocate_raw` fails and leaves the buffers alone, or there is a buffer of `count` elements in a new
slot. -/
theorem World.allocateRaw_cases {elem count : Nat} {env : AllocEnv} {res : Except Exn Nat}
    (hi : Inv w []) (he : w.allocateRaw elem count env = (w', res)) :
    (∃ x, res = .error x ∧ (w' = w ∨ ∃ pool, w.pool.allocate (count * elem) env = (pool, .error x) ∧
        w' = w.withPool pool)) ∨
      ∃ pool b block, res = .ok w.bufs.length ∧ w.pool.allocate (count * elem) env = (pool, .ok b) ∧
        pool.allBlocks[b]? = some block ∧ block.payloadSize = count * elem ∧
        w' = (w.withPool pool).addBuf ⟨elem, count, SharedBuffer.allocated b block block.payloadSize⟩ := by
  unfold World.allocateRaw at he
  cases hbytes : byteCount elem count with
  | error x =>
    rw [hbytes] at he
    cases he
    exact .inl ⟨x, rfl, .inl rfl⟩
  | ok bytes =>
    obtain rfl := byteCount_ok hbytes
    rw [hbytes] at he
    dsimp only at he
    cases ha : w.pool.allocate (count * elem) env with
    | mk pool r =>
      rw [ha] at he
      cases r with
      | error x =>
        cases he
        exact .inl ⟨x, rfl, .inr ⟨pool, rfl, rfl⟩⟩
      | ok b =>
        cases he
        obtain ⟨block, hb, -, -, hn, -⟩ := (hi.pool.allocate_ok ha).1.block
        exact .inr ⟨pool, b, block, rfl, rfl, hb, hn, by rw [hb, hn]; rfl⟩

theorem Inv.failBlock (hi : Inv w []) {pool : Pool} {env : AllocEnv} {x : Exn}
    (he : w.pool.allocate n env = (pool, .error x)) : Inv (w.withPool pool) [] := by
  obtain ⟨ha, hp⟩ := hi.pool.allocate_error he
  obtain ⟨acts, -, hall, hout⟩ := ha.blocks
  have hi' := hi.interfere acts
  obtain h : ∀ c : Nat, pool.allBlocks[c]? = (w.pool.interfere acts).allBlocks[c]? := fun c => by rw [hall]
  refine hi.withPool hp (fun c x hx => ?_) (fun c y hy => ?_) fun c y hy => ?_
  · obtain ⟨f, hf, hcontrol⟩ := (@Pool.get_interfere w.pool) acts c
    obtain ⟨control, he⟩ := hcontrol x
    exact ⟨f x, by rw [h, hf, hx]; rfl, by rw [he]; rfl⟩
  · rw [h] at hy; exact hi'.owned hy
  · rw [h] at hy
    rw [hout]; exact hi'.leased hy

theorem Inv.allocateRaw (hi : Inv w []) {elem count : Nat} (helem : 0 < elem) {env : AllocEnv}
    {res : Except Exn Nat} (he : w.allocateRaw elem count env = (w', res)) : Inv w' [] := by
  rcases World.allocateRaw_cases hi he with ⟨x, -, rfl | ⟨pool, ha, rfl⟩⟩ | ⟨pool, b, block, -, ha, hb, -, rfl⟩
  · exact hi
  · exact hi.failBlock ha
  · exact (hi.takeBlock ha).placeBuf helem hb (hi.unread (hi.pool.allocate_ok ha).1).1

theorem Inv.construct (hi : Inv w []) {elem count : Nat} (helem : 0 < elem) {env : AllocEnv}
    {res : Except Exn Nat} (he : w.construct elem count env = (w', res)) : Inv w' [] := by
  unfold World.construct at he
  split at he
  · cases he; exact hi.addEmpty helem rfl
  · exact hi.allocateRaw helem he

theorem Inv.adopt (hi : Inv w []) {elem size : Nat} (helem : 0 < elem) (hj : w.buf j = some s) :
    Inv (w.adopt j elem size).1 [] := by
  have hne : w.bufs.length ≠ j := fun he => absurd (lt_length hj) (by omega)
  exact (hi.addEmpty (s := ⟨elem, size, {}⟩) helem rfl).transfer
    (World.buf_addBuf.trans (if_pos rfl)) rfl hne

/-! ### Leases and promoted buffers -/

theorem Inv.holdLease (hi : Inv w (leaseEffects s.shared.dataPtr)) (hs : w.buf i = some s)
    (hnone : s.shared.heldReaderLease = none) :
    Inv (w.setBuf i (some (s.withShared (s.shared.withLease s.shared.dataPtr)))) [] := by
  have hloc := hi.buffers (.buf hs)
  have hsum : ∀ f : SharedBuffer → Nat,
      (w.setBuf i (some (s.withShared (s.shared.withLease s.shared.dataPtr)))).bufSum f + f s.shared =
        w.bufSum f + f (s.shared.withLease s.shared.dataPtr) := fun f => World.bufSum_setBuf (f := f) hs _
  have hholds : ∀ x, (w.setBuf i (some (s.withShared (s.shared.withLease s.shared.dataPtr)))).Holds x →
      x = s.shared.withLease s.shared.dataPtr ∨ w.Holds x := fun x hx => by
    rcases World.Holds.of_setBuf hs hx with hx | ⟨s', he, rfl⟩
    · exact .inr hx
    · cases he; exact .inl rfl
  refine ⟨hi.pool, fun ht => ?_, fun hx => ?_, fun hr => (hi.reads hr).congr (fun b x hb => ⟨x, hb⟩) le_rfl,
    fun hl => (hi.writes hl).congr (fun b x hb => ⟨x, hb⟩) le_rfl, fun {b _} hb => ?_, fun {b _} hb => ?_,
    hi.states, fun m => ?_, fun hr hx hne he => ?_, fun hl hx hne he => ?_⟩
  · rw [World.buf_setBuf hs] at ht
    split at ht
    · cases ht; exact (hi.elem hs :)
    · exact hi.elem ht
  · rcases hholds _ hx with rfl | hx
    · exact ⟨hloc.deleter, hloc.control, hloc.owner, hloc.writable, hloc.ipc, .inr rfl, hloc.block, hloc.empty,
        hloc.state⟩
    · exact (hi.buffers hx).congr (fun b x hb => ⟨x, hb, rfl⟩) le_rfl
  · have h1 := hsum (points (·.dataPtr) b)
    have h2 := hi.owned hb
    have h3 : points (fun x : SharedBuffer => x.dataPtr) b (s.shared.withLease s.shared.dataPtr) =
        points (·.dataPtr) b s.shared := rfl
    rw [count_leaseEffects_poolFree] at h2
    unfold World.owners at h2 ⊢
    rw [List.count_nil]; omega
  · have h1 := hsum (points (·.heldReaderLease) b)
    have h2 := hi.leased hb
    have h3 : points (fun x : SharedBuffer => x.heldReaderLease) b s.shared = 0 :=
      points_eq_zero (by simp [hnone])
    have h4 : points (fun x : SharedBuffer => x.heldReaderLease) b (s.shared.withLease s.shared.dataPtr) =
        if s.shared.dataPtr = some b then 1 else 0 := rfl
    rw [count_leaseEffects] at h2
    unfold World.leases at h2 ⊢
    simp only [World.setBuf, List.count_nil] at h1 ⊢; omega
  · have h1 := hsum (points (·.handleState) m)
    have h2 := hi.sharers m
    have h3 : points (fun x : SharedBuffer => x.handleState) m (s.shared.withLease s.shared.dataPtr) =
        points (·.handleState) m s.shared := rfl
    unfold World.sharers at h2 ⊢; omega
  · rcases hholds _ hx with rfl | hx
    · exact (hi.readBound hr (.buf hs) hne he :)
    · exact hi.readBound hr hx hne he
  · rcases hholds _ hx with rfl | hx
    · exact (hi.writeBound hl (.buf hs) hne he :)
    · exact hi.writeBound hl hx hne he

/-- `hold_reader_reference` changes nothing, or the buffer has a lease that it did not have. -/
theorem World.holdReaderReference_cases {res : Except Exn Unit} (he : w.holdReaderReference i = some (w', res)) :
    w' = w ∨ ∃ s pool, w.buf i = some s ∧ s.shared.heldReaderLease = none ∧ res = .ok () ∧
      w.makeLease s.shared.control = (w.withPool pool, .ok s.shared.control) ∧
      w' = (w.withPool pool).setBuf i (some (s.withShared (s.shared.withLease s.shared.control))) := by
  unfold World.holdReaderReference at he
  obtain ⟨s, hs, h₁⟩ := Option.bind_eq_some_iff.1 he
  split at h₁
  · cases h₁
    exact .inl rfl
  · rename_i hlease
    cases hm : w.makeLease s.shared.control with
    | mk w₂ lease =>
      rw [hm] at h₁
      cases lease with
      | error x =>
        obtain ⟨rfl, -⟩ := World.makeLease_error hm
        cases h₁
        exact .inl rfl
      | ok lease =>
        obtain ⟨rfl, -⟩ := World.makeLease_ok hm
        obtain ⟨pool, rfl⟩ := World.makeLease_frame hm
        cases h₁
        exact .inr ⟨s, pool, hs, by simpa using hlease, rfl, hm, rfl⟩

theorem Inv.holdReaderReference (hi : Inv w []) {res : Except Exn Unit}
    (he : w.holdReaderReference i = some (w', res)) : Inv w' [] := by
  obtain rfl | ⟨s, pool, hs, hnone, -, hm, rfl⟩ := World.holdReaderReference_cases he
  · exact hi
  · have hi₂ := hi.makeLease hm
    rw [List.append_nil, (hi.buffers (.buf hs)).control] at hi₂
    rw [(hi.buffers (.buf hs)).control]
    exact hi₂.holdLease hs hnone

theorem Inv.setPromotedBuffer (hi : Inv w []) (hr : w.read j = some r) (hnone : r.promotedBuffer = none)
    (hs : w.buf i = some s) : Inv (w.setPromotedBuffer j i) [] := by
  unfold World.setPromotedBuffer
  rw [hr, hs]
  dsimp only
  obtain ⟨r', hr'⟩ : ∃ r', r' = { r with promotedBuffer := some s.impl } := ⟨_, rfl⟩
  rw [← hr']
  have hs' : (w.setRead j (some r')).buf i = some s := hs
  have hsum : ∀ f : SharedBuffer → Nat, ((w.setRead j (some r')).setBuf i none).bufSum f = w.bufSum f := fun f => by
    have h1 := World.bufSum_setRead (f := f) hr (some r')
    have h2 := World.bufSum_setBuf (f := f) hs' none
    have h3 : promoted f r = 0 := by rw [promoted, hnone]; rfl
    have h4 : promoted f r' = f s.shared := by rw [hr']; rfl
    simp only [Option.elim_none, Option.elim_some] at h1 h2; omega
  have hread : ∀ g : ReadHandle → Nat, g r' = g r → total g (w.reads.set j (some r')) = total g w.reads :=
    fun g hg => by
      have := total_set (f := g) hr (some r')
      simp only [Option.elim_some] at this; omega
  have hholds : ∀ x, ((w.setRead j (some r')).setBuf i none).Holds x → w.Holds x := fun x hx => by
    rcases World.Holds.of_setBuf hs' hx with hx | ⟨s', he, -⟩
    · rcases World.Holds.of_setRead hr hx with hx | ⟨r₁, impl, he, hp, rfl⟩
      · exact hx
      · cases he
        rw [hr'] at hp; cases hp
        exact .buf hs
    · cases he
  have hreads : ∀ k t, (w.setRead j (some r')).read k = some t →
      ∃ k' t', w.read k' = some t' ∧ t'.dataPtr = t.dataPtr ∧ t'.state = t.state ∧ t'.readerLease = t.readerLease :=
    fun k t ht => by
      rw [World.read_setRead hr] at ht
      split at ht
      · cases ht; exact ⟨j, r, hr, by rw [hr'], by rw [hr'], by rw [hr']⟩
      · exact ⟨k, t, ht, rfl, rfl, rfl⟩
  refine ⟨hi.pool, fun {k t} ht => ?_, fun hx => (hi.buffers (hholds _ hx)).congr (fun b x hb => ⟨x, hb, rfl⟩) le_rfl,
    fun hk => ?_, fun hl => (hi.writes hl).congr (fun b x hb => ⟨x, hb⟩) le_rfl, fun {b _} hb => ?_,
    fun {b _} hb => ?_, fun {m st} hm => ?_, fun m => ?_, fun hk hx hne he => ?_,
    fun hl hx => hi.writeBound hl (hholds _ hx)⟩
  · rw [World.buf_setBuf hs'] at ht
    split at ht
    · cases ht
    · exact hi.elem (show w.buf k = some t from ht)
  · obtain ⟨k', t', ht', hd, hst, hle⟩ := hreads _ _ hk
    have hok := hi.reads ht'
    exact ⟨by rw [← hle, ← hd]; exact hok.lease, by rw [← hd, ← hst]; exact hok.bound,
      fun hb => hok.block (hd.trans hb), fun he => hok.state (hst.trans he)⟩
  · unfold World.owners; rw [hsum]; exact hi.owned hb
  · have h1 := hread (points (·.readerLease) b) (by rw [hr']; rfl)
    have h2 := hi.leased hb
    unfold World.leases at h2 ⊢
    rw [hsum]
    simp only [World.setRead, World.setBuf]; omega
  · have h1 := hread (points (·.state) m) (by rw [hr']; rfl)
    have hc := hi.states hm
    unfold World.readers at hc
    rw [← h1] at hc
    exact hc
  · unfold World.sharers; rw [hsum]; exact hi.sharers m
  · obtain ⟨k', t', ht', hd, hst, -⟩ := hreads _ _ hk
    rw [← hst]
    exact hi.readBound ht' (hholds _ hx) (by rw [hd]; exact hne) (by rw [hd]; exact he)

/-! ### Payload bytes -/

theorem World.fill_ok {bytes : List UInt8} (he : w.fill l bytes = some w') : ∃ h b block, w.write l = some h ∧
    h.dataPtr = some b ∧ w.pool.allBlocks[b]? = some block ∧ bytes.length ≤ block.payload.length ∧
    w' = w.withPool (w.pool.modifyBlock b fun block =>
      { block with payload := bytes ++ block.payload.drop bytes.length }) := by
  unfold World.fill at he
  obtain ⟨h, hl, h₁⟩ := Option.bind_eq_some_iff.1 he
  obtain ⟨b, hb, h₂⟩ := Option.bind_eq_some_iff.1 h₁
  obtain ⟨block, hblock, h₃⟩ := Option.bind_eq_some_iff.1 h₂
  split at h₃
  · cases h₃
    exact ⟨h, b, block, hl, hb, hblock, ‹_›, rfl⟩
  · cases h₃

theorem World.writeByte_ok {offset : Nat} {byte : UInt8} (he : w.writeByte l offset byte = some w') :
    ∃ h b block, w.write l = some h ∧ h.dataPtr = some b ∧ w.pool.allBlocks[b]? = some block ∧
      offset < block.payload.length ∧
      w' = w.withPool (w.pool.modifyBlock b fun block =>
        { block with payload := block.payload.set offset byte }) := by
  unfold World.writeByte at he
  obtain ⟨h, hl, h₁⟩ := Option.bind_eq_some_iff.1 he
  obtain ⟨b, hb, h₂⟩ := Option.bind_eq_some_iff.1 h₁
  obtain ⟨block, hblock, h₃⟩ := Option.bind_eq_some_iff.1 h₂
  split at h₃
  · cases h₃
    exact ⟨h, b, block, hl, hb, hblock, ‹_›, rfl⟩
  · cases h₃

theorem World.shown_eq {bytes : List UInt8} (he : w.shown j n = some bytes) : ∃ r b block, w.read j = some r ∧
    r.dataPtr = some b ∧ w.pool.allBlocks[b]? = some block ∧ n ≤ block.payload.length ∧
    bytes = block.payload.take n := by
  unfold World.shown at he
  obtain ⟨r, hr, h₁⟩ := Option.bind_eq_some_iff.1 he
  obtain ⟨b, hb, h₂⟩ := Option.bind_eq_some_iff.1 h₁
  obtain ⟨block, hblock, h₃⟩ := Option.bind_eq_some_iff.1 h₂
  split at h₃
  · cases h₃
    exact ⟨r, b, block, hr, hb, hblock, ‹_›, rfl⟩
  · cases h₃

/-- A payload overwritten in place. -/
theorem Inv.setPayload (hi : Inv w due) {f : List UInt8 → List UInt8} (hb : w.pool.allBlocks[b]? = some block)
    (hf : (f block.payload).length = block.payload.length) :
    Inv (w.withPool (w.pool.modifyBlock b fun block => { block with payload := f block.payload })) due := by
  refine hi.modifyBlock (hi.pool.modifyBlock fun x hx => ?_) fun x => ⟨rfl, rfl, rfl⟩
  rw [hb] at hx; cases hx
  exact ⟨(hi.pool.stored hb).congr rfl rfl rfl hf rfl rfl, rfl, rfl⟩

theorem Inv.fill (hi : Inv w due) {bytes : List UInt8} (he : w.fill l bytes = some w') : Inv w' due := by
  obtain ⟨h, b, block, -, -, hb, hle, rfl⟩ := World.fill_ok he
  exact hi.setPayload (f := fun payload => bytes ++ payload.drop bytes.length) hb
    (by rw [List.length_append, List.length_drop]; omega)

theorem Inv.writeByte (hi : Inv w due) {offset : Nat} {byte : UInt8} (he : w.writeByte l offset byte = some w') :
    Inv w' due := by
  obtain ⟨h, b, block, -, -, hb, -, rfl⟩ := World.writeByte_ok he
  exact hi.setPayload (f := fun payload => payload.set offset byte) hb (by simp)

/-! ### The backend -/

/-- From `p` to `q` a block keeps its use, its readers and its payload. -/
structure Touched (p q : Pool) : Prop where
  outside : q.outside = p.outside
  get (c : Nat) : ∃ f : SharedBufferBlock → SharedBufferBlock, q.allBlocks[c]? = (p.allBlocks[c]?).map f ∧
    ∀ x, (f x).inUse = x.inUse ∧ (f x).payloadSize = x.payloadSize ∧
      (f x).control.readerState = x.control.readerState ∧ (f x).payload = x.payload

namespace Touched
variable {p q q' : Pool}

theorem refl (p : Pool) : Touched p p := ⟨rfl, fun c => ⟨id, by simp, fun x => ⟨rfl, rfl, rfl, rfl⟩⟩⟩

theorem trans (h : Touched p q) (h' : Touched q q') : Touched p q' where
  outside := h'.outside.trans h.outside
  get c := by
    obtain ⟨f, hf, hk⟩ := h.get c
    obtain ⟨g, hg, hk'⟩ := h'.get c
    refine ⟨fun x => g (f x), by rw [hg, hf, Option.map_map]; rfl, fun x => ?_⟩
    obtain ⟨h1, h2, h3, h4⟩ := hk' (f x)
    obtain ⟨h5, h6, h7, h8⟩ := hk x
    exact ⟨h1.trans h5, h2.trans h6, h3.trans h7, h4.trans h8⟩

theorem modifyBlock {f : SharedBufferBlock → SharedBufferBlock}
    (hf : ∀ x, (f x).inUse = x.inUse ∧ (f x).payloadSize = x.payloadSize ∧
      (f x).control.readerState = x.control.readerState ∧ (f x).payload = x.payload) :
    Touched p (p.modifyBlock b f) where
  outside := Pool.outside_modifyBlock f
  get c := by
    refine ⟨fun x => if c = b then f x else x, Pool.get_modifyBlock f, fun x => ?_⟩
    split
    · exact hf x
    · exact ⟨rfl, rfl, rfl, rfl⟩

theorem markPublished (now : Nat) : Touched p (p.markPublished b now) := by
  unfold Pool.markPublished Pool.modifyControl
  refine (modifyBlock ?_).trans (modifyBlock ?_)
  · exact fun _ => ⟨rfl, rfl, rfl, rfl⟩
  · exact fun _ => ⟨rfl, rfl, rfl, rfl⟩

theorem assignUid (uid : UInt64) : Touched p (p.assignUid b uid).1 := by
  unfold Pool.assignUid
  split
  · exact .refl p
  · split
    · exact modifyBlock fun _ => ⟨rfl, rfl, rfl, rfl⟩
    · exact .refl p

theorem registerBlock (euid : Nat) (pid : Int) (socket : Except Exn Unit) :
    Touched p (p.registerBlock b euid pid socket).1 := by
  unfold Pool.registerBlock
  cases p.allBlocks[b]? with
  | none => exact .refl p
  | some block =>
    dsimp only
    split
    · exact .refl p
    · split
      · exact .refl p
      · exact .refl p
      · have h := modifyBlock (p := p) (b := b) (f := fun x => { x with
          socketPath := blockSocketPath euid pid block.blockId block.nativeHandle }) fun _ => ⟨rfl, rfl, rfl, rfl⟩
        exact ⟨h.outside, h.get⟩

end Touched

theorem Inv.touchPool (hi : Inv w due) {pool : Pool} (hp : pool.Inv) (ht : Touched w.pool pool) :
    Inv (w.withPool pool) due := by
  choose f hf hkeep using ht.get
  refine hi.mapPool hp f hf fun c x hx => ?_
  obtain ⟨h1, h2, h3, -⟩ := hkeep c x
  rw [ht.outside, ← hi.leased hx, hi.owned hx]
  exact ⟨h2, by rw [h1], by rw [h3]⟩

/-- Publishing a block of the own pool changes the pool only, and no payload. -/
theorem World.ownerPublish_spec (hi : Inv w []) {e : DescriptorEnv} {d : Option SharedBufferDescriptor}
    (he : w.ownerPublish s b e = (w', d)) :
    ∃ pool, w' = w.withPool pool ∧ Touched w.pool pool ∧ Inv w' [] := by
  unfold World.ownerPublish at he
  have h1 := Touched.registerBlock (p := w.pool) (b := b) w.euid w.pid e.socket
  have hp1 := hi.pool.registerBlock (b := b) w.euid w.pid e.socket
  cases hr : w.pool.registerBlock b w.euid w.pid e.socket with
  | mk pool res =>
    rw [hr] at he h1 hp1
    cases res with
    | error x =>
      cases he
      exact ⟨pool, rfl, h1, hi.touchPool hp1 h1⟩
    | ok ipcName =>
      have h2 := h1.trans (.assignUid (b := b) e.uid)
      have hp2 := hp1.assignUid (b := b) e.uid
      dsimp only at he h2 hp2
      split at he
      · cases he
        exact ⟨_, rfl, h2, hi.touchPool hp2 h2⟩
      · split at he
        · cases he
          exact ⟨_, rfl, h2, hi.touchPool hp2 h2⟩
        · cases he
          have h3 := h2.trans (.markPublished (b := b) e.now)
          exact ⟨_, rfl, h3, hi.touchPool (hp2.markPublished e.now) h3⟩

/-- A local buffer is finalised and published through the pool, or there is no descriptor. -/
theorem World.createDescriptor_cases (hi : Inv w []) {impl : Option Nat} {gid : GidKey} {e : DescriptorEnv}
    {d : Option SharedBufferDescriptor} (he : w.createDescriptorWithEndpoint impl gid e = (w', d)) :
    (w' = w ∧ d = none ∧ (w.compatibilityCache gid = some false ∨ (impl >>= w.buf) = none)) ∨
      ∃ s pool, (impl >>= w.buf) = some s ∧ w.compatibilityCache gid ≠ some false ∧
        w' = (w.finalizeWriteHandle s.shared).withPool pool ∧ Touched w.pool pool ∧
        (d ≠ none → s.shared.dataPtr ≠ none) ∧ Inv w' [] := by
  unfold World.createDescriptorWithEndpoint at he
  split at he
  · cases he
    exact .inl ⟨rfl, rfl, .inl ‹_›⟩
  · rename_i hcompat
    cases hs : impl >>= w.buf with
    | none =>
      rw [hs] at he
      cases he
      exact .inl ⟨rfl, rfl, .inr rfl⟩
    | some s =>
      rw [hs] at he
      obtain ⟨i, -, hs'⟩ := Option.bind_eq_some_iff.1 hs
      have hipc : s.shared.hasIpcDescriptor = false := by
        simp [SharedBuffer.hasIpcDescriptor, (hi.buffers (.buf hs')).ipc]
      have hi₁ := hi.finalizeWriteHandle s.shared
      dsimp only at he
      rw [hipc, if_neg (by decide)] at he
      have hpool : (w.finalizeWriteHandle s.shared).pool = w.pool := World.pool_finalizeWriteHandle _
      right
      refine ⟨s, ?_⟩
      cases hf : (w.finalizeWriteHandle s.shared).findBlockForPtr s.shared.dataPtr with
      | none =>
        rw [hf] at he
        cases he
        refine ⟨w.pool, rfl, hcompat, ?_, .refl _, fun h => absurd rfl h, hi₁⟩
        rw [← hpool]; rfl
      | some b =>
        rw [hf] at he
        obtain ⟨pool, rfl, ht, hi₂⟩ := World.ownerPublish_spec hi₁ he
        refine ⟨pool, rfl, hcompat, rfl, hpool ▸ ht, fun _ hn => ?_, hi₂⟩
        rw [hn] at hf; cases hf

theorem Inv.createDescriptor (hi : Inv w []) {impl : Option Nat} {gid : GidKey} {e : DescriptorEnv}
    {d : Option SharedBufferDescriptor} (he : w.createDescriptorWithEndpoint impl gid e = (w', d)) : Inv w' [] := by
  rcases World.createDescriptor_cases hi he with ⟨rfl, -⟩ | ⟨s, pool, -, -, -, -, -, hi'⟩
  · exact hi
  · exact hi'

end

end MemfdBuffer.Proc
