import MemfdBuffer.Proc.Capability
import MemfdBuffer.Proc.Progress

/-!
# Writers after publication

Publication is not a state of its own: a descriptor makes later writers impossible only through the handle state,
which `finalize_write_handle` moves on from `InUse` alone. A buffer without a handle state, or with one that has had
readers only, is published and can still be written.
-/

namespace MemfdBuffer.Proc

open Slots

/-- The buffer in slot `i` has block `b`. -/
def World.Held (w : World) (i b : Nat) : Prop := ∃ s, w.buf i = some s ∧ s.shared.dataPtr = some b

/-- The worlds that calls bring about from `w` while the buffer in slot `i` has block `b`. -/
abbrev World.Later (w : World) (i b : Nat) (v : World) : Prop :=
  Machine.ReachIf step (fun u => u = w) (fun u _ => u.Held i b) v

/-- As long as the buffer in slot `i` keeps block `b`, a write handle is refused. -/
def Immutable (w : World) (i b : Nat) : Prop :=
  ∀ v, w.Later i b v → v.Held i b → ∀ v' res, v.getWriteHandle i = some (v', res) → ∃ x, res = .error x

/-- The buffer in slot `i` has had its writer, if it has block `b`. -/
def Settled (w : World) (i b : Nat) : Prop := ∀ s, w.buf i = some s → s.shared.dataPtr = some b →
  ∃ n st, s.shared.handleState = some n ∧ w.states[n]? = some st ∧ st.state = .finalized

section
variable {w w' : World} {i j k n b : Nat} {s t : Buf} {r : ReadHandle} {op : Op} {out : Out}

/-! ### A finalized buffer stays finalized -/

/-- A state that was final before is final after. -/
theorem Settled.carry {E : Scope} (hs : w.buf i = some s) (hp : s.shared.dataPtr = some b) (h : Settled w i b)
    (hf : Frame E w w') {x : SharedBuffer} (hx : x.handleState = s.shared.handleState) :
    ∃ n st, x.handleState = some n ∧ w'.states[n]? = some st ∧ st.state = .finalized := by
  obtain ⟨n, st, hn, hst, hfin⟩ := h s hs hp
  obtain ⟨st', hst', hfin'⟩ := hf.states hst
  exact ⟨n, st', hx.trans hn, hst', hfin' hfin⟩

namespace World

/-- After a resize the buffer is as it was, or it has no block, or one that nobody has held. -/
theorem resize_block (hi : Inv w []) {count : Nat} {env : AllocEnv} {res : Except Exn Unit} (hs : w.buf i = some s)
    (he : w.resize i count env = some (w', res)) : ∃ s', w'.buf i = some s' ∧
      (Kept w.states.length s s' ∨ s'.shared = {} ∨ ∃ c, s'.shared.dataPtr = some c ∧ w.Spare c) := by
  obtain ⟨t, ht, hcases⟩ := resize_cases he
  rw [hs] at ht
  cases ht
  rcases hcases with ⟨-, rfl, -⟩ | ⟨-, -, rfl, -⟩ | ⟨-, -, ⟨x, -, halloc⟩ | ⟨w₁, j, halloc, hrest⟩⟩
  · exact ⟨s, hs, .inl (.refl s)⟩
  · exact ⟨_, buf_clear hs, .inr (.inl rfl)⟩
  · obtain ⟨s', hs', hk⟩ := (allocateRaw_frame halloc).buf hs id
    exact ⟨s', hs', .inl hk⟩
  have hi₁ := hi.allocateRaw (hi.elem hs) halloc
  obtain ⟨hj, c, block, ht, -, -, hspare⟩ := allocateRaw_slot hi halloc
  obtain ⟨s₁, hs₁, hk₁⟩ := (allocateRaw_frame halloc).buf hs id
  have hlt := lt_length hs
  have hij : i ≠ j := by omega
  rcases hrest with ⟨-, rfl, -⟩ | ⟨-, ⟨x, w₂, -, hc, rfl⟩ | ⟨w₂, hc, rfl, -⟩⟩
  · obtain ⟨s', hs', hshared, -⟩ := buf_swapIn count hs₁ ht hij
    exact ⟨s', hs', .inr (.inr ⟨c, by rw [hshared]; rfl, hspare⟩)⟩
  · obtain ⟨s₂, hs₂, hk₂⟩ := (copyInto_frame hi₁ ht hc).buf hs₁ id
    obtain ⟨s', hs', hk'⟩ := (destroyBuf_frame j).buf hs₂ hij
    refine ⟨s', hs', .inl (hk₁.trans (allocateRaw_frame halloc).length_le ?_)⟩
    exact hk₂.trans (copyInto_frame hi₁ ht hc).length_le hk'
  · obtain ⟨s₂, hs₂, -⟩ := (copyInto_frame hi₁ ht hc).buf hs₁ id
    obtain ⟨t₂, ht₂, hk⟩ := (copyInto_frame hi₁ ht hc).buf ht id
    obtain ⟨s', hs', hshared, -⟩ := buf_swapIn count hs₂ ht₂ hij
    exact ⟨s', hs', .inr (.inr ⟨c, by rw [hshared, hk.dataPtr]; rfl, hspare⟩)⟩

end World

/-- What a call does to a buffer that has a block before and after it. -/
theorem Settled.exec (h : Settled w i b) (hi : Inv w []) (hheld : w.Held i b) (he : exec w op = some (w', out)) :
    Settled w' i b := by
  obtain ⟨s, hs, hp⟩ := hheld
  have hf := exec_frame hi he
  intro s' hs' hp'
  by_cases hk : (op.scope w).buf i
  · cases exec_ran he with
    | @adopt j elem size =>
      cases hk
      have hne : w.bufs.length ≠ i := fun h => absurd (lt_length hs) (by omega)
      have hnew : (w.addBuf ⟨elem, size, {}⟩).buf w.bufs.length = some ⟨elem, size, {}⟩ :=
        World.buf_addBuf.trans (if_pos rfl)
      have hold : (w.addBuf ⟨elem, size, {}⟩).buf i = some s :=
        (World.buf_addBuf.trans (if_neg hne.symm)).trans hs
      have hgone := (World.buf_transfer_source hnew hold hne).symm.trans hs'
      cases hgone
      cases hp'
    | destroyBuf =>
      cases hk
      rw [World.buf_destroyBuf hs] at hs'
      cases hs'
    | clear =>
      cases hk
      rw [World.buf_clear hs] at hs'
      cases hs'
      cases hp'
    | @assign k j u t hu ht =>
      obtain ⟨hij, rfl | rfl⟩ := hk
      · rw [World.buf_assign hs ht hij] at hs'
        cases hs'
        -- both buffers would hold block `b`
        have heq := hi.holds_unique (.buf hs) (.buf ht) hp hp'
        exact h.carry hs hp hf (x := t.shared) (by rw [heq])
      · rw [World.buf_assign_source hu hs hij] at hs'
        cases hs'
        cases hp'
    | resize hres =>
      cases hk
      obtain ⟨s₁, hs₁, hcases⟩ := World.resize_block hi hs hres
      rw [hs'] at hs₁
      cases hs₁
      rcases hcases with hkept | hempty | ⟨c, hc, hspare, -⟩
      · obtain ⟨n, -, hn, -⟩ := h s hs hp
        exact h.carry hs hp hf (hkept.state.resolve_right fun hno => by rw [hn] at hno; cases hno.1)
      · rw [hempty] at hp'
        cases hp'
      · rw [hp'] at hc
        cases hc
        have hle := World.Holds.le_bufSum (f := points (·.dataPtr) b) (.buf hs : w.Holds s.shared)
        rw [points_eq_one hp] at hle
        unfold World.owners at hspare
        omega
    | _ => exact hk.elim
  · obtain ⟨s₁, hs₁, hkept⟩ := hf.buf hs hk
    rw [hs'] at hs₁
    cases hs₁
    obtain ⟨n, -, hn, -⟩ := h s hs hp
    exact h.carry hs hp hf (hkept.state.resolve_right fun hno => by rw [hn] at hno; cases hno.1)

theorem World.Later.inv {v : World} (h : w.Later i b v) (hi : Inv w []) : Inv v [] := by
  refine Machine.ReachIf.inv (P := fun v => Inv v []) (fun u (hu : u = w) => hu ▸ hi) (fun u op u' hu _ hs => ?_) h
  obtain ⟨out, he⟩ := step_exec hs
  exact hu.exec he

/-- Once the state is final no writer comes. -/
theorem Settled.immutable (h : Settled w i b) (hi : Inv w []) : Immutable w i b := by
  intro v hv hheld v' res hget
  have hsettled : Settled v i b := by
    refine hv.inv_of (P := fun v => Settled v i b) (fun u hu => World.Later.inv hu hi) (fun u (hu : u = w) => hu ▸ h) ?_
    intro u op u' hu hset hheld hs
    obtain ⟨out, he⟩ := step_exec hs
    exact hset.exec hu hheld he
  obtain ⟨s, hs, hp⟩ := hheld
  obtain ⟨n, st, hn, hst, hfin⟩ := hsettled s hs hp
  obtain ⟨t, ht, ⟨x, hx, -⟩ | ⟨m, w₁, -, -, ⟨x, hx, -⟩ | ⟨-, hu, -⟩⟩⟩ := World.getWriteHandle_cases (hv.inv hi) hget
  · exact ⟨x, hx⟩
  · exact ⟨x, hx⟩
  · rw [hs] at ht
    cases ht
    rw [World.stateOf, hn, Option.bind_some, hst, Option.getD_some, hfin] at hu
    cases hu

/-! ### A buffer that has had no writer gets one -/

namespace World

/-- A read handle goes: its state has one reader less, and the buffers stay. -/
theorem destroyRead_spec (hr : w.read j = some r) (hn : r.state = some n) {st : HandleState}
    (hst : w.states[n]? = some st) :
    (w.destroyRead j).bufs = w.bufs ∧ (w.destroyRead j).states[n]? = some st.leave := by
  obtain ⟨states, he, -, hmap⟩ := leaveState_eq (w := w) r.state
  unfold destroyRead releaseRead
  rw [hr]
  dsimp only
  rw [he]
  refine ⟨rfl, (hmap n).trans ?_⟩
  rw [hst, Option.map_some, if_pos hn]

/-- The readers of an `Unset` state can all be destroyed. -/
theorem Later.drain {v : World} {st : HandleState} (hi : Inv w []) (hv : w.Later i b v) (hs : v.buf i = some s)
    (hp : s.shared.dataPtr = some b) (hst : v.states[n]? = some st) (hu : st.state = .unset) :
    ∃ v' st', w.Later i b v' ∧ v'.buf i = some s ∧ v'.states[n]? = some st' ∧ st'.state = .unset ∧
      st'.activeReaders = 0 := by
  induction hm : st.activeReaders generalizing v st with
  | zero => exact ⟨v, st, hv, hs, hst, hu, hm⟩
  | succ m ih =>
    have hreaders := ((hv.inv hi).states hst).readers
    obtain ⟨j, r, hr, hpos⟩ := exists_of_total_pos (f := points (·.state) n) (l := v.reads)
      (by unfold readers at hreaders; omega)
    have hr : v.read j = some r := hr
    obtain ⟨hbufs, hstates⟩ := destroyRead_spec hr (points_pos.1 hpos) hst
    have hs' : (v.destroyRead j).buf i = some s := by
      unfold buf
      rw [hbufs]
      exact hs
    have hstep : step v (.destroyRead j) = some (v.destroyRead j) := by
      simp only [step, exec, hr]
      rfl
    refine ih (.next hv ⟨s, hs, hp⟩ hstep) hs' hstates hu ?_
    show st.activeReaders - 1 = m
    omega

end World

/-- Without a writer before it, a buffer that has a block can be written. -/
theorem not_immutable (hi : Inv w []) (hs : w.buf i = some s) (hp : s.shared.dataPtr = some b)
    (hu : (w.stateOf s.shared).state = .unset) : ¬ Immutable w i b := by
  intro himm
  have hstart : w.Later i b w := .start rfl
  obtain ⟨v, hv, hs', hu', hr⟩ : ∃ v, w.Later i b v ∧ v.buf i = some s ∧ (v.stateOf s.shared).state = .unset ∧
      (v.stateOf s.shared).activeReaders = 0 := by
    cases hn : s.shared.handleState with
    | none => exact ⟨w, hstart, hs, hu, by simp [World.stateOf, hn]⟩
    | some n =>
      have hst := hi.stateOf (.buf hs) hn
      obtain ⟨v, st, hv, hs', hst', hu', hr⟩ := hstart.drain hi hs hp hst hu
      have heq : v.stateOf s.shared = st := by
        rw [World.stateOf, hn, Option.bind_some, hst', Option.getD_some]
      exact ⟨v, hv, hs', heq ▸ hu', heq ▸ hr⟩
  have hiv := hv.inv hi
  obtain ⟨v', res, hget⟩ := World.getWriteHandle_total hiv hs'
  obtain ⟨x, rfl⟩ := himm v hv ⟨s, hs', hp⟩ v' res hget
  obtain ⟨t, ht, ⟨y, -, -, hempty⟩ | ⟨m, w₁, -, -, ⟨y, -, -, hrefused⟩ | ⟨hx, -⟩⟩⟩ :=
    World.getWriteHandle_cases hiv hget
  · rw [hs'] at ht
    cases ht
    rcases hempty with hnone | hzero
    · rw [hp] at hnone
      cases hnone
    · obtain ⟨block, hb, hsize⟩ := (hiv.buffers (.buf hs')).block hp
      have hpos := (hiv.pool.stored hb).pos
      omega
  · rw [hs'] at ht
    cases ht
    rcases hrefused with h | h
    · exact h hu'
    · exact h hr
  · cases hx

/-! ### Publication -/

theorem World.states_finalizeWriteHandle {x : SharedBuffer} {st : HandleState} (hn : x.handleState = some n)
    (hst : w.states[n]? = some st) : (w.finalizeWriteHandle x).states[n]? =
      some (if st.state = .inUse then { st with state := .finalized } else st) := by
  unfold finalizeWriteHandle finalizeState
  rw [hn]
  dsimp only
  rw [hst]
  dsimp only
  split
  · rw [states_setState hst, if_pos rfl]
  · exact hst

/-- Once a buffer has been published it is not written again as long as it keeps its block, if and only if it has had
a writer by then. -/
theorem publication_immutable {gid : GidKey} {e : DescriptorEnv} {d : SharedBufferDescriptor} (h : Reachable w)
    (hs : w.buf i = some s) (hp : s.shared.dataPtr = some b)
    (he : w.createDescriptorWithEndpoint (some i) gid e = (w', some d)) :
    Immutable w' i b ↔ (w.stateOf s.shared).state ≠ .unset := by
  have hi := h.inv
  obtain ⟨-, hd, -⟩ | ⟨t, pool, ht, -, rfl, -, -, hi'⟩ := World.createDescriptor_cases hi he
  · cases hd
  rw [Option.bind_eq_bind, Option.bind_some, hs] at ht
  cases ht
  have hs' : ((w.finalizeWriteHandle s.shared).withPool pool).buf i = some s := by
    show Slots.get (w.finalizeWriteHandle s.shared).bufs i = some s
    rw [World.bufs_finalizeWriteHandle]
    exact hs
  constructor
  · intro himm hu
    refine not_immutable hi' hs' hp ?_ himm
    cases hn : s.shared.handleState with
    | none => simp [World.stateOf, hn]
    | some n =>
      have hst := World.states_finalizeWriteHandle hn (hi.stateOf (.buf hs) hn)
      rw [hu, if_neg (by decide)] at hst
      show (World.stateOf (w.finalizeWriteHandle s.shared) s.shared).state = .unset
      rw [World.stateOf, hn, Option.bind_some, hst, Option.getD_some]
      exact hu
  · intro hne
    refine Settled.immutable ?_ hi'
    intro t ht hp'
    rw [hs'] at ht
    cases ht
    cases hn : s.shared.handleState with
    | none => exact absurd (by simp [World.stateOf, hn]) hne
    | some n =>
      have hst := hi.stateOf (.buf hs) hn
      refine ⟨n, _, rfl, World.states_finalizeWriteHandle hn hst, ?_⟩
      split
      · rfl
      · rename_i hno
        cases hstate : (w.stateOf s.shared).state with
        | unset => exact absurd hstate hne
        | inUse => exact absurd hstate hno
        | finalized => rfl

end

/-- A buffer with a writer. -/
def writtenTo : World := (Machine.run step {} [.construct 1 8 {}, .getWriteHandle 0]).getD {}

theorem writtenTo_reachable : Reachable writtenTo := by
  have hrun : Machine.run step {} [.construct 1 8 {}, .getWriteHandle 0] = some writtenTo := rfl
  exact Machine.Reach.run (.start ⟨0, 1, "", rfl⟩) hrun

theorem publication_immutable_writtenTo :
    (writtenTo.createDescriptorWithEndpoint (some 0) [7] {}).2.isSome ∧
      Immutable (writtenTo.createDescriptorWithEndpoint (some 0) [7] {}).1 0 0 := by
  have hd : (writtenTo.createDescriptorWithEndpoint (some 0) [7] {}).2.isSome = true := by decide
  obtain ⟨d, he⟩ := Option.isSome_iff_exists.1 hd
  exact ⟨hd, (publication_immutable writtenTo_reachable rfl rfl (Prod.ext rfl he)).2 (by decide)⟩

/-- A buffer that nobody has written. -/
def unwritten : World := (Machine.run step {} [.construct 1 8 {}]).getD {}

theorem unwritten_reachable : Reachable unwritten := by
  have hrun : Machine.run step {} [.construct 1 8 {}] = some unwritten := rfl
  exact Machine.Reach.run (.start ⟨0, 1, "", rfl⟩) hrun

theorem unwritten_not_immutable : Reachable unwritten ∧
    (unwritten.createDescriptorWithEndpoint (some 0) [7] {}).2.isSome ∧
      ¬ Immutable (unwritten.createDescriptorWithEndpoint (some 0) [7] {}).1 0 0 := by
  refine ⟨unwritten_reachable, by decide, fun himm => ?_⟩
  obtain ⟨x, hx⟩ := himm _ (.start rfl) ⟨_, rfl, rfl⟩ _ _ rfl
  cases hx

end MemfdBuffer.Proc
