import MemfdBuffer.Proc.Exclusive
import MemfdBuffer.Proc.Publication

/-!
# The CPU copy where there is no descriptor

Where `create_descriptor_with_endpoint` gives no descriptor the message is to go through `to_cpu`. The one exit that
stands before `finalize_write_handle` in its way is that for an endpoint recorded as incompatible: a live writer is
still `InUse` after it.
-/

namespace MemfdBuffer.Proc

open Slots

/-- The buffer in slot `i` is not empty, its block is at least as large as its elements are, starts with `bytes` and
admits one more reader. -/
def Servable (w : World) (i : Nat) (bytes : List UInt8) : Prop :=
  ∃ s b block, w.buf i = some s ∧ s.impl.size ≠ 0 ∧ s.shared.dataPtr = some b ∧ w.pool.allBlocks[b]? = some block ∧
    s.impl.size * s.elem ≤ block.payloadSize ∧ bytes = block.payload.take (s.impl.size * s.elem) ∧
    readerRefused block.control.readerState = false

/-- The buffer in slot `i` goes to the endpoints in turn, each by descriptor or else by CPU copy. -/
def Serves (i : Nat) : World → List (GidKey × DescriptorEnv) → Prop
  | _, [] => True
  | w, (gid, e) :: endpoints =>
    match w.createDescriptorWithEndpoint (some i) gid e with
    | (w', some _) => Serves i w' endpoints
    | (w', none) => ∃ v bytes, w'.toCpu i = some (v, .ok bytes) ∧ Serves i v endpoints

section
variable {w w' v : World} {i j n b : Nat} {s : Buf} {r : ReadHandle} {bytes : List UInt8} {x : SharedBuffer}
  {gid : GidKey} {e : DescriptorEnv}

namespace World

theorem writing_iff (hs : w.buf i = some s) : w.writing i = true ↔ (w.stateOf s.shared).state = .inUse := by
  unfold writing
  rw [hs, Option.any_some, beq_iff_eq]

/-- A finalized buffer has no writer. -/
theorem stateOf_finalizeWriteHandle (x : SharedBuffer) :
    ((w.finalizeWriteHandle x).stateOf x).state ≠ .inUse := by
  intro hu
  unfold stateOf at hu
  cases hn : x.handleState with
  | none =>
    rw [hn] at hu
    cases hu
  | some n =>
    rw [hn, Option.bind_some] at hu
    cases hst : w.states[n]? with
    | none =>
      have hnone : (w.finalizeWriteHandle x).states[n]? = none := by
        unfold finalizeWriteHandle finalizeState
        rw [hn]
        dsimp only
        rw [hst]
        exact hst
      rw [hnone] at hu
      cases hu
    | some st =>
      rw [states_finalizeWriteHandle hn hst, Option.getD_some] at hu
      split at hu
      · cases hu
      · rename_i hno
        exact hno hu

end World

/-- A publication leaves the bytes for the fallback, and no writer unless it stops at an incompatible endpoint. -/
theorem Servable.publish (hi : Inv w []) (h : Servable w i bytes)
    {d : Option SharedBufferDescriptor} (he : w.createDescriptorWithEndpoint (some i) gid e = (w', d)) :
    Inv w' [] ∧ Servable w' i bytes ∧
      (w.compatibilityCache gid = some false → w' = w ∧ d = none) ∧
      (w.compatibilityCache gid ≠ some false → w'.writing i = false) := by
  obtain ⟨s, b, block, hs, hsize, hp, hb, hfit, hbytes, hr⟩ := h
  rcases World.createDescriptor_cases hi he with ⟨rfl, hd, hno⟩ | ⟨t, pool, ht, hne, rfl, htouch, -, hi'⟩
  · rw [Option.bind_eq_bind, Option.bind_some, hs] at hno
    have hcache := hno.resolve_right (Option.some_ne_none s)
    exact ⟨hi, ⟨s, b, block, hs, hsize, hp, hb, hfit, hbytes, hr⟩, fun _ => ⟨rfl, hd⟩, fun h => absurd hcache h⟩
  · rw [Option.bind_eq_bind, Option.bind_some, hs] at ht
    cases ht
    have hs' : ((w.finalizeWriteHandle s.shared).withPool pool).buf i = some s := by
      show Slots.get (w.finalizeWriteHandle s.shared).bufs i = some s
      rw [World.bufs_finalizeWriteHandle]
      exact hs
    refine ⟨hi', ?_, fun h => absurd h hne, fun _ => ?_⟩
    · obtain ⟨f, hf, hkeep⟩ := htouch.get b
      obtain ⟨-, hn, hreaders, hpayload⟩ := hkeep block
      refine ⟨s, b, f block, hs', hsize, hp, hf.trans (by rw [hb]; rfl), ?_, ?_, ?_⟩
      · rw [hn]
        exact hfit
      · rw [hpayload]
        exact hbytes
      · rw [hreaders]
        exact hr
    · rw [← Bool.not_eq_true, World.writing_iff hs']
      exact World.stateOf_finalizeWriteHandle s.shared

namespace World

theorem pool_destroyRead (hr : w.read j = some r) : (w.destroyRead j).pool = w.pool.effects r.releaseEffects := by
  obtain ⟨states, he, -⟩ := leaveState_eq (w := w) r.state
  unfold destroyRead releaseRead
  rw [hr]
  dsimp only
  rw [he]
  rfl

/-- A read handle on a buffer that has a block: the block has one reader more, the state too. -/
theorem getReadHandle_slot_eq (hi : Inv w []) {block : SharedBufferBlock} (hs : w.buf i = some s)
    (hp : s.shared.dataPtr = some b) (hb : w.pool.allBlocks[b]? = some block)
    (he : w.getReadHandle i = some (w', .ok j)) : ∃ n w₁, Readied w i s w₁ n ∧
      w' = ((w₁.withPool (w.pool.modifyControl b fun _ =>
        { block.control with readerState := block.control.readerState + 1#32 })).setState n
          (w.stateOf s.shared).enter).addRead
            { dataPtr := some b, state := some n, readerLease := some b, owner := s.shared.owner } ∧
      j = w.reads.length := by
  obtain ⟨t, n, w₁, ht, hready, -, ⟨x, hx, -⟩ | ⟨hj, -, w₂, hm, rfl⟩⟩ := getReadHandle_cases hi he
  · cases hx
  · rw [hs] at ht
    cases ht
    have hcontrol := (hi.buffers (.buf hs)).control
    rw [hcontrol, hp] at hm ⊢
    refine ⟨n, w₁, hready, ?_, Except.ok.inj hj⟩
    obtain ⟨-, ⟨hno, -⟩ | ⟨c, block', hc, hb', -, rfl⟩⟩ := makeLease_ok hm
    · cases hno
    · cases hc
      rw [hready.pool, hb] at hb'
      cases hb'
      rw [hready.pool]

end World

/-- A CPU copy is refused exactly for a live writer. Where it is not, it has the bytes and leaves all as it was. -/
theorem Servable.copy (hi : Inv w []) (h : Servable w i bytes) : ∃ v res, w.toCpu i = some (v, res) ∧
    (w.writing i = true → ∃ x, res = .error x) ∧
    (w.writing i = false → res = .ok bytes ∧ Servable v i bytes ∧ v.writing i = false) := by
  obtain ⟨s, b, block, hs, hsize, hp, hb, hfit, rfl, hr⟩ := h
  obtain ⟨w₁, res, hget⟩ := World.getReadHandle_total hi hs
  cases res with
  | error x =>
    refine ⟨w₁, .error x, ?_, fun _ => ⟨x, rfl⟩, fun hno => ?_⟩
    · simp only [World.toCpu, hs, hget, Option.bind_eq_bind, Option.bind_some, if_neg hsize]
      rfl
    · obtain ⟨t, n, w₂, ht, -, -, ⟨y, -, -, hu | ⟨c, hc, hfull⟩⟩ | ⟨hok, -⟩⟩ := World.getReadHandle_cases hi hget
      · rw [hs] at ht
        cases ht
        rw [(World.writing_iff hs).2 hu] at hno
        cases hno
      · rw [hs] at ht
        cases ht
        rw [(hi.buffers (.buf hs)).control, hp] at hc
        cases hc
        rw [hfull block hb] at hr
        cases hr
      · cases hok
  | ok j =>
    have hnot : (w.stateOf s.shared).state ≠ .inUse := by
      obtain ⟨t, n, w₂, ht, -, -, ⟨y, hy, -⟩ | ⟨-, hne, -⟩⟩ := World.getReadHandle_cases hi hget
      · cases hy
      · rw [hs] at ht
        cases ht
        exact hne
    obtain ⟨n, w₂, hready, hw₁, rfl⟩ := World.getReadHandle_slot_eq hi hs hp hb hget
    have hlen := (hi.pool.stored hb).length
    have hread : w₁.read w.reads.length =
        some { dataPtr := some b, state := some n, readerLease := some b, owner := s.shared.owner } := by
      rw [hw₁]
      exact World.read_addRead.trans (if_pos (by rw [← hready.reads]; rfl))
    have hblock : w₁.pool.allBlocks[b]? =
        some (block.withControl { block.control with readerState := block.control.readerState + 1#32 }) := by
      rw [hw₁]
      exact (Pool.get_modifyControl _).trans (by rw [hb]; simp)
    have hshown : w₁.shown w.reads.length (s.impl.size * s.elem) =
        some (block.payload.take (s.impl.size * s.elem)) := by
      unfold World.shown
      rw [hread, Option.bind_eq_bind, Option.bind_some, Option.bind_eq_bind, Option.bind_some, hblock,
        Option.bind_eq_bind, Option.bind_some]
      exact if_pos (by rw [← hlen] at hfit; exact hfit)
    have hstate : w₁.states[n]? = some (w.stateOf s.shared).enter := by
      rw [hw₁]
      exact (World.states_setState (w := w₂.withPool _) hready.state).trans (if_pos rfl)
    have hbuf : w₁.buf i = some (s.withShared { s.shared with handleState := some n }) := by
      rw [hw₁]
      exact hready.self
    obtain ⟨hbufs, hleft⟩ := World.destroyRead_spec hread rfl hstate
    have hbuf' : (w₁.destroyRead w.reads.length).buf i =
        some (s.withShared { s.shared with handleState := some n }) := by
      unfold World.buf
      rw [hbufs]
      exact hbuf
    refine ⟨w₁.destroyRead w.reads.length, .ok _, ?_, fun hu => absurd ((World.writing_iff hs).1 hu) hnot,
      fun _ => ⟨rfl, ⟨_, b, _, hbuf', hsize, hp, ?_, hfit, rfl, ?_⟩, ?_⟩⟩
    · simp only [World.toCpu, hs, hget, Option.bind_eq_bind, Option.bind_some, if_neg hsize, hshown]
      rfl
    · rw [World.pool_destroyRead hread]
      show (w₁.pool.modifyControl b (·.releaseReader)).allBlocks[b]? = some block
      rw [Pool.get_modifyControl, hblock, Option.map_some, if_pos rfl]
      -- one more and one less
      simp [SharedBufferBlock.withControl, SharedBufferControlHeader.releaseReader]
    · exact hr
    · rw [← Bool.not_eq_true, World.writing_iff hbuf']
      show ((World.stateOf _ { s.shared with handleState := some n })).state ≠ .inUse
      rw [World.stateOf, Option.bind_some, hleft, Option.getD_some]
      exact hnot

/-- One endpoint: it is recorded as incompatible and finds a live writer, or there is no writer after it. -/
theorem Servable.next (hi : Inv w []) (h : Servable w i bytes) (gid : GidKey) (e : DescriptorEnv) :
    ((w.compatibilityCache gid = some false ∧ w.writing i = true) ∧ ∀ endpoints, ¬ Serves i w ((gid, e) :: endpoints)) ∨
      ¬ (w.compatibilityCache gid = some false ∧ w.writing i = true) ∧
        ∃ v, Inv v [] ∧ Servable v i bytes ∧ v.writing i = false ∧
          ∀ endpoints, Serves i w ((gid, e) :: endpoints) ↔ Serves i v endpoints := by
  cases he : w.createDescriptorWithEndpoint (some i) gid e with
  | mk w' d =>
    obtain ⟨hi', h', hsame, hended⟩ := h.publish hi he
    obtain ⟨v, res, hcopy, hrefused, hok⟩ := h'.copy hi'
    by_cases hlive : w.compatibilityCache gid = some false ∧ w.writing i = true
    · refine .inl ⟨hlive, fun endpoints hserves => ?_⟩
      obtain ⟨rfl, rfl⟩ := hsame hlive.1
      obtain ⟨x, rfl⟩ := hrefused hlive.2
      unfold Serves at hserves
      rw [he] at hserves
      obtain ⟨v', bytes', hv', -⟩ := hserves
      rw [hv'] at hcopy
      cases hcopy
    · have hw' : w'.writing i = false := by
        by_cases hc : w.compatibilityCache gid = some false
        · rw [(hsame hc).1, ← Bool.not_eq_true]
          exact fun hw => hlive ⟨hc, hw⟩
        · exact hended hc
      refine .inr ⟨hlive, ?_⟩
      cases d with
      | some d =>
        refine ⟨w', hi', h', hw', fun endpoints => ?_⟩
        conv_lhs => unfold Serves
        rw [he]
      | none =>
        obtain ⟨rfl, hv, hwv⟩ := hok hw'
        refine ⟨v, hi'.toCpu hcopy, hv, hwv, fun endpoints => ?_⟩
        conv_lhs => unfold Serves
        rw [he]
        constructor
        · rintro ⟨v', bytes', hv', hserves⟩
          rw [hcopy] at hv'
          cases hv'
          exact hserves
        · intro hserves
          exact ⟨v, bytes, hcopy, hserves⟩

/-- Without a live writer every endpoint is served. -/
theorem Servable.serves (hi : Inv w []) (h : Servable w i bytes) (hw : w.writing i = false)
    (endpoints : List (GidKey × DescriptorEnv)) : Serves i w endpoints := by
  induction endpoints generalizing w with
  | nil => trivial
  | cons p endpoints ih =>
    obtain ⟨gid, e⟩ := p
    rcases h.next hi gid e with ⟨⟨-, hw'⟩, -⟩ | ⟨-, v, hiv, hv, hwv, hiff⟩
    · rw [hw] at hw'
      cases hw'
    · exact (hiff endpoints).2 (ih hiv hv hwv)

/-- Where there is no descriptor the CPU copy has the bytes, if and only if it is not for an endpoint recorded as
incompatible that finds a live writer; and such an endpoint matters only as the first. -/
theorem cpu_fallback (h : Reachable w) (hs : Servable w i bytes) :
    (∀ gid e w', w.createDescriptorWithEndpoint (some i) gid e = (w', none) →
      ((∃ v, w'.toCpu i = some (v, .ok bytes)) ↔ ¬ (w.compatibilityCache gid = some false ∧ w.writing i = true))) ∧
    ∀ endpoints, Serves i w endpoints ↔
      ¬ (w.writing i = true ∧ ∃ p ∈ endpoints.head?, w.compatibilityCache p.1 = some false) := by
  have hi := h.inv
  constructor
  · intro gid e w' he
    obtain ⟨hi', hs', hsame, hended⟩ := hs.publish hi he
    obtain ⟨v, res, hcopy, hrefused, hok⟩ := hs'.copy hi'
    constructor
    · rintro ⟨v', hv'⟩ ⟨hc, hw⟩
      rw [(hsame hc).1] at hcopy hv' hrefused
      obtain ⟨x, rfl⟩ := hrefused hw
      rw [hv'] at hcopy
      cases hcopy
    · intro hno
      have hw' : w'.writing i = false := by
        by_cases hc : w.compatibilityCache gid = some false
        · rw [(hsame hc).1, ← Bool.not_eq_true]
          exact fun hw => hno ⟨hc, hw⟩
        · exact hended hc
      obtain ⟨rfl, -⟩ := hok hw'
      exact ⟨v, hcopy⟩
  · intro endpoints
    cases endpoints with
    | nil =>
      refine ⟨fun _ h => ?_, fun _ => trivial⟩
      obtain ⟨-, p, hp, -⟩ := h
      cases hp
    | cons p endpoints =>
      obtain ⟨gid, e⟩ := p
      rcases hs.next hi gid e with ⟨⟨hc, hw⟩, hno⟩ | ⟨hlive, v, hiv, hv, hwv, hiff⟩
      · exact ⟨fun hserves => absurd hserves (hno endpoints), fun h => absurd ⟨hw, _, rfl, hc⟩ h⟩
      · refine ⟨fun _ h => ?_, fun _ => (hiff endpoints).2 (hv.serves hiv hwv endpoints)⟩
        obtain ⟨hw, q, hq, hqc⟩ := h
        cases hq
        exact hlive ⟨hqc, hw⟩

end

/-- A buffer whose writer is alive, and an endpoint recorded as incompatible. -/
def mixedPeers : World :=
  (Machine.run step {} [.construct 1 4 {}, .getWriteHandle 0, .onDiscoveringEndpoint [1] none,
    .onDiscoveringEndpoint [2] (some "")]).getD {}

theorem mixedPeers_reachable : Reachable mixedPeers := by
  have hrun : Machine.run step {} [.construct 1 4 {}, .getWriteHandle 0, .onDiscoveringEndpoint [1] none,
    .onDiscoveringEndpoint [2] (some "")] = some mixedPeers := rfl
  exact Machine.Reach.run (.start ⟨0, 1, "", rfl⟩) hrun

theorem mixedPeers_servable : Servable mixedPeers 0 [0, 0, 0, 0] :=
  ⟨_, 0, _, rfl, by decide, rfl, rfl, by decide, by decide, by decide⟩

/-- The compatible endpoint first: both are served. -/
theorem cpu_fallback_mixedPeers : Serves 0 mixedPeers [([2], {}), ([1], {})] := by
  refine ((cpu_fallback mixedPeers_reachable mixedPeers_servable).2 _).2 fun h => ?_
  obtain ⟨-, p, hp, hc⟩ := h
  cases hp
  revert hc
  decide

theorem mixedPeers_not_served : Reachable mixedPeers ∧ Servable mixedPeers 0 [0, 0, 0, 0] ∧
    (mixedPeers.createDescriptorWithEndpoint (some 0) [1] {}).2 = none ∧
    (∀ v bytes, (mixedPeers.createDescriptorWithEndpoint (some 0) [1] {}).1.toCpu 0 ≠ some (v, .ok bytes)) ∧
    ¬ Serves 0 mixedPeers [([1], {}), ([2], {})] := by
  have hno : ∀ v bytes, (mixedPeers.createDescriptorWithEndpoint (some 0) [1] {}).1.toCpu 0 ≠ some (v, .ok bytes) := by
    intro v bytes hv
    cases hv
  refine ⟨mixedPeers_reachable, mixedPeers_servable, by decide, hno, fun hserves => ?_⟩
  obtain ⟨v, bytes, hv, -⟩ := hserves
  exact hno v bytes hv

end MemfdBuffer.Proc
