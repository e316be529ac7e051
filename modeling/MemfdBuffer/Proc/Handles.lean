import MemfdBuffer.Proc.Objects

/-!
# Handle states, handles and the calls on one buffer

The invariant under the calls of `SharedBuffer`, `ReadHandle` and `WriteHandle`.
-/

namespace MemfdBuffer.Proc

open Slots

section
variable {w w' : World} {due : List Effect} {b n m i j k l : Nat} {s : Buf} {r : ReadHandle} {h : WriteHandle}
  {x y : SharedBuffer} {state state' : HandleState}

theorem World.states_setState (hn : w.states[n]? = some state) :
    (w.setState n state').states[m]? = if m = n then some state' else w.states[m]? := by
  unfold setState
  by_cases hm : m = n
  · subst hm; rw [if_pos rfl, Tally.get_set_self hn]
  · rw [if_neg hm, List.getElem?_set_ne (Ne.symm hm)]

namespace Inv

/-- A state changes, with the handles it counts. -/
theorem setState (hi : Inv w due) (hn : w.states[n]? = some state)
    (hc : Counted state' (w.readers n) (w.writers n)) : Inv (w.setState n state') due := by
  have hlen : w.states.length = (w.setState n state').states.length := by simp [World.setState]
  refine ⟨hi.pool, hi.elem, fun hx => (hi.buffers hx).congr (fun b x hb => ⟨x, hb, rfl⟩) hlen.le,
    fun hr => (hi.reads hr).congr (fun b x hb => ⟨x, hb⟩) hlen.le,
    fun hl => (hi.writes hl).congr (fun b x hb => ⟨x, hb⟩) hlen.le, hi.owned, hi.leased, fun {m st} hm => ?_,
    hi.sharers, hi.readBound, hi.writeBound⟩
  rw [World.states_setState hn] at hm
  split at hm
  · rename_i he
    cases hm; subst he; exact hc
  · exact hi.states hm

/-- `handle_state_` is made where there was none. -/
theorem makeState (hi : Inv w due) (hs : w.buf i = some s) (hnone : s.shared.handleState = none) :
    Inv (w.makeState i s) due := by
  have hloc := hi.buffers (.buf hs)
  have hsum : ∀ f : SharedBuffer → Nat,
      (w.makeState i s).bufSum f + f s.shared =
        w.bufSum f + f { s.shared with handleState := some w.states.length } :=
    fun f => World.bufSum_setBuf (f := f) hs _
  have hholds : ∀ x, (w.makeState i s).Holds x →
      x = { s.shared with handleState := some w.states.length } ∨ w.Holds x := fun x hx => by
    rcases World.Holds.of_setBuf (w := w) hs (show (w.setBuf i _).Holds x from hx) with hx | ⟨s', he, rfl⟩
    · exact .inr hx
    · cases he; exact .inl rfl
  have hlen : (w.makeState i s).states.length = w.states.length + 1 := by simp [World.makeState]
  have hnew : ∀ x, w.Holds x → x.handleState ≠ some w.states.length := fun x hx he =>
    absurd ((hi.buffers hx).state he) (lt_irrefl _)
  refine ⟨hi.pool, fun ht => ?_, fun hx => ?_,
    fun hr => (hi.reads hr).congr (fun b x hb => ⟨x, hb⟩) (by rw [hlen]; omega),
    fun hl => (hi.writes hl).congr (fun b x hb => ⟨x, hb⟩) (by rw [hlen]; omega), fun {b _} hb => ?_,
    fun {b _} hb => ?_, fun {m st} hm => ?_, fun m => ?_, fun hr hx hne he => ?_, fun hl hx hne he => ?_⟩
  · change (w.setBuf i _).buf _ = _ at ht
    rw [World.buf_setBuf hs] at ht
    split at ht
    · cases ht; exact (hi.elem hs :)
    · exact hi.elem ht
  · rcases hholds _ hx with rfl | hx
    · exact ⟨hloc.deleter, hloc.control, hloc.owner, hloc.writable, hloc.ipc, hloc.lease, hloc.block, hloc.empty,
        fun he => by cases he; rw [hlen]; omega⟩
    · exact (hi.buffers hx).congr (fun b x hb => ⟨x, hb, rfl⟩) (by rw [hlen]; omega)
  · have h1 := hsum (points (·.dataPtr) b)
    have h2 := hi.owned hb
    simp only [World.owners, points] at h1 h2 ⊢; omega
  · have h1 := hsum (points (·.heldReaderLease) b)
    have h2 := hi.leased hb
    simp only [World.leases, points, World.makeState, World.setBuf] at h1 h2 ⊢; omega
  · rcases Tally.get_append_cases (show (w.states ++ [{}])[m]? = some st from hm) with hm | ⟨rfl, rfl⟩
    · exact hi.states hm
    · refine ⟨(total_eq_zero fun j r hr => points_eq_zero fun he => ?_).symm, fun _ => total_eq_zero fun j h hl =>
        points_eq_zero fun he => ?_, (by intro hu; cases hu), ?_⟩
      · exact absurd ((hi.reads hr).state he) (lt_irrefl _)
      · exact absurd ((hi.writes hl).state he) (lt_irrefl _)
      · refine le_of_eq_of_le (total_eq_zero fun j h hl => points_eq_zero fun he => ?_) (Nat.zero_le 1)
        exact absurd ((hi.writes hl).state he) (lt_irrefl _)
  · have h1 := hsum (points (·.handleState) m)
    have h2 := hi.sharers m
    by_cases hm : m = w.states.length
    · have h3 : w.bufSum (points (·.handleState) m) = 0 := by
        by_contra hpos
        have hpos : 0 < w.bufSum (points (·.handleState) m) := Nat.pos_of_ne_zero hpos
        obtain ⟨x, hx, hxm⟩ := World.exists_of_bufSum_pos hpos
        exact hnew x hx (hm ▸ points_pos.1 hxm)
      have h4 : points (fun x : SharedBuffer => x.handleState) m
          { s.shared with handleState := some w.states.length } ≤ 1 := points_le_one
      unfold World.sharers; omega
    · have h3 : points (fun x : SharedBuffer => x.handleState) m
          { s.shared with handleState := some w.states.length } = 0 :=
        points_eq_zero fun he => hm (Option.some.inj he).symm
      unfold World.sharers at h2 ⊢; omega
  · rcases hholds _ hx with rfl | hx
    · have hs' := hi.readBound hr (.buf hs) hne he
      rw [hnone] at hs'
      exact absurd hs'.symm ((hi.reads hr).bound hne)
    · exact hi.readBound hr hx hne he
  · rcases hholds _ hx with rfl | hx
    · exact absurd ((hi.writes hl).state he.symm) (lt_irrefl _)
    · exact hi.writeBound hl hx hne he

/-- A read handle on `x` is made, for a lease that is due. -/
theorem enterRead (hi : Inv w (leaseEffects x.dataPtr ++ due)) (hx : w.Holds x) (hn : x.handleState = some n)
    (hst : w.states[n]? = some state) (hne : state.state ≠ .inUse) :
    Inv ((w.setState n state.enter).addRead
      { dataPtr := x.dataPtr, state := some n, readerLease := x.dataPtr, owner := x.owner }) due := by
  have hloc := hi.buffers hx
  have hlen : (w.setState n state.enter).states.length = w.states.length := by simp [World.setState]
  have hholds : ∀ y, ((w.setState n state.enter).addRead
      { dataPtr := x.dataPtr, state := some n, readerLease := x.dataPtr, owner := x.owner }).Holds y → w.Holds y := by
    rintro y (hy | ⟨j, r, impl, hr, hp, rfl⟩)
    · exact .inl hy
    · rw [World.read_addRead] at hr
      split at hr
      · cases hr; cases hp
      · exact .inr ⟨j, r, impl, hr, hp, rfl⟩
  have hsum : ∀ f : SharedBuffer → Nat, ((w.setState n state.enter).addRead
      { dataPtr := x.dataPtr, state := some n, readerLease := x.dataPtr, owner := x.owner }).bufSum f = w.bufSum f :=
    fun f => World.bufSum_addRead
  refine ⟨hi.pool, hi.elem, fun hy => (hi.buffers (hholds _ hy)).congr (fun b x hb => ⟨x, hb, rfl⟩) hlen.ge,
    fun hr => ?_, fun hl => (hi.writes hl).congr (fun b x hb => ⟨x, hb⟩) hlen.ge, fun {b _} hb => ?_,
    fun {b _} hb => ?_, fun {m st} hm => ?_, fun m => ?_, fun hr hy hne' he => ?_, fun hl hy => ?_⟩
  · rw [World.read_addRead] at hr
    split at hr
    · cases hr
      refine ⟨rfl, fun _ => Option.some_ne_none n, fun hb => ?_, fun he => ?_⟩
      · obtain ⟨block, hb, -⟩ := hloc.block hb
        exact ⟨block, hb⟩
      · cases he
        exact (hloc.state hn).trans_le hlen.ge
    · exact (hi.reads hr).congr (fun b x hb => ⟨x, hb⟩) hlen.ge
  · have ho := hi.owned hb
    rw [List.count_append, count_leaseEffects_poolFree] at ho
    unfold World.owners at ho ⊢
    rw [hsum]; omega
  · have hl := hi.leased hb
    rw [List.count_append, count_leaseEffects] at hl
    unfold World.leases at hl ⊢
    rw [hsum]
    simp only [World.addRead, total_append, points, World.setState]
    omega
  · have hcount : ((w.setState n state.enter).addRead
        { dataPtr := x.dataPtr, state := some n, readerLease := x.dataPtr, owner := x.owner }).readers m =
          w.readers m + if m = n then 1 else 0 := by
      unfold World.readers
      simp only [World.addRead, total_append, points, World.setState, Option.some.injEq, eq_comm]
    rw [hcount]
    change (w.setState n state.enter).states[m]? = some st at hm
    rw [World.states_setState hst] at hm
    split at hm
    · rename_i he
      cases hm; subst he
      have hc := hi.states hst
      exact ⟨by simp only [HandleState.enter, hc.readers, if_true], hc.unset, fun hu => absurd hu hne, hc.one⟩
    · rename_i he
      rw [if_neg he]; exact hi.states hm
  · unfold World.sharers; rw [hsum]; exact hi.sharers m
  · rw [World.read_addRead] at hr
    split at hr
    · cases hr
      obtain ⟨b, hb⟩ := Option.ne_none_iff_exists'.1 hne'
      rw [hi.holds_unique (hholds _ hy) hx (he.trans hb) hb]; exact hn
    · exact hi.readBound hr (hholds _ hy) hne' he
  · exact hi.writeBound hl (hholds _ hy)

/-- A write handle on `x` is made. -/
theorem startWrite (hi : Inv w due) (hx : w.Holds x) (hn : x.handleState = some n)
    (hst : w.states[n]? = some state) (hu : state.state = .unset) (hr : state.activeReaders = 0) :
    Inv ((w.setState n { state with state := .inUse }).addWrite
      { dataPtr := x.dataPtr, state := some n, owner := x.owner }) due := by
  have hloc := hi.buffers hx
  have hlen : (w.setState n { state with state := .inUse }).states.length = w.states.length := by
    simp [World.setState]
  refine ⟨hi.pool, hi.elem, fun hy => (hi.buffers hy).congr (fun b x hb => ⟨x, hb, rfl⟩) hlen.ge,
    fun hr => (hi.reads hr).congr (fun b x hb => ⟨x, hb⟩) hlen.ge, fun hl => ?_, hi.owned, hi.leased,
    fun {m st} hm => ?_, hi.sharers, hi.readBound, fun hl hy hne he => ?_⟩
  · rw [World.write_addWrite] at hl
    split at hl
    · cases hl
      refine ⟨fun _ => Option.some_ne_none n, fun hb => ?_, fun he => ?_⟩
      · obtain ⟨block, hb, -⟩ := hloc.block hb
        exact ⟨block, hb⟩
      · cases he
        exact (hloc.state hn).trans_le hlen.ge
    · exact (hi.writes hl).congr (fun b x hb => ⟨x, hb⟩) hlen.ge
  · have hcount : ((w.setState n { state with state := .inUse }).addWrite
        { dataPtr := x.dataPtr, state := some n, owner := x.owner }).writers m =
          w.writers m + if m = n then 1 else 0 := by
      unfold World.writers
      simp only [World.addWrite, total_append, points, World.setState, Option.some.injEq, eq_comm]
    rw [hcount]
    change (w.setState n _).states[m]? = some st at hm
    rw [World.states_setState hst] at hm
    split at hm
    · rename_i he
      cases hm; subst he
      have hc := hi.states hst
      have h0 := hc.unset hu
      have hr0 := hc.readers.symm.trans hr
      refine ⟨hc.readers, (by intro hu; cases hu), fun _ => ⟨?_, hr0⟩, ?_⟩ <;> rw [if_pos rfl] <;> omega
    · rename_i he
      rw [if_neg he]; exact hi.states hm
  · rw [World.write_addWrite] at hl
    split at hl
    · cases hl
      rw [hi.shares_unique hy hx he hn]
    · exact hi.writeBound hl hy hne he

theorem finalizeState (hi : Inv w due) (n : Nat) : Inv (w.finalizeState n) due := by
  unfold World.finalizeState
  split
  · rename_i st hst
    split
    · have hc := hi.states hst
      exact hi.setState hst ⟨hc.readers, nofun, nofun, hc.one⟩
    · exact hi
  · exact hi

theorem finalizeWriteHandle (hi : Inv w due) (x : SharedBuffer) : Inv (w.finalizeWriteHandle x) due := by
  unfold World.finalizeWriteHandle
  split
  · exact hi.finalizeState _
  · exact hi

theorem endWrite (hi : Inv w due) (n : Option Nat) : Inv (w.endWrite n) due := by
  unfold World.endWrite
  split
  · exact hi
  · split
    · rename_i st hst
      have hc := hi.states hst
      exact hi.setState hst ⟨hc.readers, nofun, nofun, hc.one⟩
    · exact hi

/-- A write handle whose state is `Finalized` may go. -/
theorem blankWrite (hi : Inv w due) (hl : w.write l = some h)
    (hfin : ∀ n st, h.state = some n → w.states[n]? = some st → st.state = .finalized) (o : Option Nat)
    (hkeep : o = none ∨ o = h.state) : Inv (w.setWrite l (some { state := o })) due := by
  have hw := hi.writes hl
  refine ⟨hi.pool, hi.elem, fun hy => (hi.buffers hy).congr (fun b x hb => ⟨x, hb, rfl⟩) le_rfl,
    fun hr => (hi.reads hr).congr (fun b x hb => ⟨x, hb⟩) le_rfl, fun hl' => ?_, hi.owned, hi.leased,
    fun {m st} hm => ?_, hi.sharers, hi.readBound, fun hl' hy hne he => ?_⟩
  · rw [World.write_setWrite hl] at hl'
    split at hl'
    · cases hl'
      refine ⟨fun h => absurd rfl h, nofun, fun he => ?_⟩
      rcases hkeep with rfl | rfl
      · cases he
      · exact hw.state he
    · exact (hi.writes hl').congr (fun b x hb => ⟨x, hb⟩) le_rfl
  · have hc := hi.states hm
    have ht := total_set (f := points (·.state) m) hl (some { state := o })
    have hle : points (fun h : WriteHandle => h.state) m { state := o } ≤ points (·.state) m h := by
      rcases hkeep with rfl | rfl
      · exact Nat.zero_le _
      · exact le_rfl
    simp only [Option.elim_some] at ht
    have hle' : (w.setWrite l (some { state := o })).writers m ≤ w.writers m := by
      unfold World.writers; simp only [World.setWrite]; omega
    refine ⟨hc.readers, fun hu => ?_, fun hu => ⟨?_, (hc.inUse hu).2⟩, hle'.trans hc.one⟩
    · have := hc.unset hu; omega
    · have hne : h.state ≠ some m := fun he => by rw [hfin m st he hm] at hu; cases hu
      have h0 : points (fun h : WriteHandle => h.state) m h = 0 := points_eq_zero hne
      have := (hc.inUse hu).1
      unfold World.writers at this ⊢; simp only [World.setWrite]; omega
  · rw [World.write_setWrite hl] at hl'
    split at hl'
    · cases hl'; exact absurd rfl hne
    · exact hi.writeBound hl' hy hne he

end Inv

theorem World.endWrite_finalized {st : HandleState} {o : Option Nat} (ho : o = some n)
    (hn : (w.endWrite o).states[n]? = some st) : st.state = .finalized := by
  subst ho
  unfold World.endWrite at hn
  dsimp only at hn
  split at hn
  · rename_i st' hst'
    rw [World.states_setState hst', if_pos rfl] at hn
    cases hn; rfl
  · rename_i hnone
    rw [hn] at hnone; cases hnone

theorem World.write_endWrite (o : Option Nat) : (w.endWrite o).write l = w.write l := by
  unfold endWrite
  split
  · rfl
  · split <;> rfl

/-- A released write handle points nowhere and its state is `Finalized`. -/
theorem World.releaseWrite_spec (hl : w.write l = some h) :
    (w.releaseWrite l).write l = some { state := h.state } ∧
      ∀ n st, h.state = some n → (w.releaseWrite l).states[n]? = some st → st.state = .finalized := by
  unfold releaseWrite
  rw [hl]
  refine ⟨?_, fun n st he hn => endWrite_finalized he hn⟩
  dsimp only
  rw [write_setWrite ((write_endWrite _).trans hl), if_pos rfl]

theorem World.setWrite_setWrite (a b : Option WriteHandle) :
    (w.setWrite l a).setWrite l b = w.setWrite l b := by
  simp [setWrite, List.set_set]

/-- Leaving a state changes that state alone. -/
theorem World.leaveState_eq (o : Option Nat) : ∃ states, w.leaveState o = { w with states := states } ∧
    states.length = w.states.length ∧
      ∀ m : Nat, states[m]? = (w.states[m]?).map fun st => if o = some m then st.leave else st := by
  cases o with
  | none => exact ⟨w.states, rfl, rfl, fun m => by simp⟩
  | some n =>
    cases hn : w.states[n]? with
    | none =>
      refine ⟨w.states, by simp only [leaveState, hn], rfl, fun m => ?_⟩
      by_cases hm : n = m
      · subst hm; simp [hn]
      · simp [hm]
    | some st =>
      refine ⟨w.states.set n st.leave, by simp only [leaveState, hn, setState], by simp, fun m => ?_⟩
      have := @World.states_setState w n m st st.leave hn
      unfold setState at this
      rw [this]
      by_cases hm : n = m
      · subst hm; simp [hn]
      · simp [hm, Ne.symm hm]

theorem World.releaseRead_read (hr : w.read j = some r) : (w.releaseRead j).read j = some {} := by
  unfold releaseRead
  rw [hr]
  obtain ⟨states, he, -⟩ := leaveState_eq (w := w) r.state
  have hr' : ((w.leaveState r.state).effects r.releaseEffects).read j = some r := by rw [he]; exact hr
  exact (read_setRead hr').trans (if_pos rfl)

theorem World.buf_reset (hs : w.buf i = some s) : (w.reset i).buf i = some (s.withShared {}) := by
  unfold reset
  rw [hs]
  exact (buf_setBuf (w := w.effects s.shared.resetEffects) hs).trans (if_pos rfl)

theorem count_releaseEffects_poolFree
    (hp : ∀ impl, r.promotedBuffer = some impl → Local w impl.sharedBuffer) (b : Nat) :
    r.releaseEffects.count (.poolFree b) = promoted (points (·.dataPtr) b) r := by
  rw [ReadHandle.releaseEffects, List.count_append, count_leaseEffects_poolFree, promoted]
  cases he : r.promotedBuffer with
  | none => rfl
  | some impl => rw [(hp impl he).count_poolFree]; simp

theorem count_releaseEffects_releaseReader
    (hp : ∀ impl, r.promotedBuffer = some impl → Local w impl.sharedBuffer) (b : Nat) :
    r.releaseEffects.count (.releaseReader b) =
      points (·.readerLease) b r + promoted (points (·.heldReaderLease) b) r := by
  rw [ReadHandle.releaseEffects, List.count_append, count_leaseEffects, promoted, points]
  cases he : r.promotedBuffer with
  | none => rfl
  | some impl => rw [(hp impl he).count_releaseReader]; simp

namespace Inv

theorem releaseWrite (hi : Inv w due) (l : Nat) : Inv (w.releaseWrite l) due := by
  unfold World.releaseWrite
  cases hl : w.write l with
  | none => exact hi
  | some h =>
    exact (hi.endWrite h.state).blankWrite ((World.write_endWrite _).trans hl)
      (fun n st he hn => World.endWrite_finalized he hn) _ (.inr rfl)

/-- A released write handle may be blanked altogether. -/
theorem releaseWrite_blank (hi : Inv w due) (hl : w.write l = some h) :
    Inv ((w.releaseWrite l).setWrite l (some {})) due := by
  obtain ⟨hget, hfin⟩ := World.releaseWrite_spec hl
  exact (hi.releaseWrite l).blankWrite hget hfin none (.inl rfl)

theorem destroyWrite (hi : Inv w due) (l : Nat) : Inv (w.destroyWrite l) due := by
  cases hl : w.write l with
  | none =>
    have he : w.destroyWrite l = w := by
      simp only [World.destroyWrite, World.releaseWrite, hl, World.setWrite, set_none hl]
    rw [he]; exact hi
  | some h =>
    have hblank := hi.releaseWrite_blank hl
    have := hblank.dropBlankWrite (j := l) (by
      rw [World.write_setWrite (World.releaseWrite_spec hl).1, if_pos rfl])
    rwa [World.setWrite_setWrite] at this

theorem assignWrite (hi : Inv w due) (hl : w.write i = some h) (hij : i ≠ j) :
    Inv ((w.releaseWrite i).transferWrite i j) due := by
  have hget := (World.releaseWrite_spec hl).1
  have := (hi.releaseWrite_blank hl).transferBlankWrite (i := i) (by rw [World.write_setWrite hget, if_pos rfl]) hij
  unfold World.transferWrite at this ⊢
  rw [World.write_setWrite hget, if_neg (Ne.symm hij)] at this
  cases hj : (w.releaseWrite i).write j with
  | none => exact hi.releaseWrite i
  | some t =>
    rw [hj] at this
    dsimp only at this ⊢
    rwa [World.setWrite_setWrite] at this

/-- A read handle is emptied, its effects are due. -/
theorem takeRead (hi : Inv w due) (hr : w.read j = some r) :
    Inv ((w.leaveState r.state).setRead j (some {})) (r.releaseEffects ++ due) := by
  have hpromoted : ∀ impl, r.promotedBuffer = some impl → Local w impl.sharedBuffer := fun impl hp =>
    hi.buffers (.inr ⟨j, r, impl, hr, hp, rfl⟩)
  obtain ⟨states, he, hlen, hget⟩ := World.leaveState_eq (w := w) r.state
  rw [he]
  have hr' : World.read { w with states := states } j = some r := hr
  have hsum : ∀ f : SharedBuffer → Nat,
      (World.setRead { w with states := states } j (some {})).bufSum f + promoted f r = w.bufSum f :=
    fun f => World.bufSum_setRead hr' (some {})
  have hread : ∀ g : ReadHandle → Nat, g {} = 0 → total g (w.reads.set j (some {})) + g r = total g w.reads :=
    fun g hg => by
      have := total_set (f := g) hr (some {})
      simp only [Option.elim_some, hg] at this; omega
  have hholds : ∀ x, (World.setRead { w with states := states } j (some {})).Holds x → w.Holds x := fun x hx => by
    rcases World.Holds.of_setRead hr' hx with hx | ⟨r', impl, he, hp, -⟩
    · exact hx
    · cases he; cases hp
  refine ⟨hi.pool, hi.elem, fun hx => (hi.buffers (hholds _ hx)).congr (fun b x hb => ⟨x, hb, rfl⟩) hlen.ge,
    fun hk => ?_, fun hl => (hi.writes hl).congr (fun b x hb => ⟨x, hb⟩) hlen.ge, fun {b _} hb => ?_,
    fun {b _} hb => ?_, fun {m st} hm => ?_, fun m => ?_, fun hk hx hne => ?_,
    fun hl hx => hi.writeBound hl (hholds _ hx)⟩
  · rw [World.read_setRead hr'] at hk
    split at hk
    · cases hk; exact .default _
    · exact (hi.reads hk).congr (fun b x hb => ⟨x, hb⟩) hlen.ge
  · have h1 := hsum (points (·.dataPtr) b)
    have h2 := hi.owned hb
    unfold World.owners at h2 ⊢
    rw [List.count_append, count_releaseEffects_poolFree hpromoted]; omega
  · have h1 := hsum (points (·.heldReaderLease) b)
    have h2 := hi.leased hb
    have h3 := hread (points (·.readerLease) b) rfl
    unfold World.leases at h2 ⊢
    rw [List.count_append, count_releaseEffects_releaseReader hpromoted]
    simp only [World.setRead] at h1 ⊢; omega
  · change states[m]? = some st at hm
    rw [hget, Option.map_eq_some_iff] at hm
    obtain ⟨st, hst, rfl⟩ := hm
    have hc := hi.states hst
    have h3 := hread (points (·.state) m) rfl
    have hn := hc.readers
    change Counted _ (total (points (·.state) m) (w.reads.set j (some {}))) (w.writers m)
    unfold World.readers at hc hn
    split
    · rename_i hm
      have h4 : points (fun r : ReadHandle => r.state) m r = 1 := points_eq_one hm
      exact ⟨by simp only [HandleState.leave]; omega, hc.unset,
        fun hu => by have := (hc.inUse hu).2; omega, hc.one⟩
    · rename_i hm
      have h4 : points (fun r : ReadHandle => r.state) m r = 0 := points_eq_zero hm
      rw [show total (points (·.state) m) (w.reads.set j (some {})) = total (points (·.state) m) w.reads by omega]
      exact hc
  · have h1 := hsum (points (·.handleState) m)
    have h2 := hi.sharers m
    unfold World.sharers at h2 ⊢; omega
  · rw [World.read_setRead hr'] at hk
    split at hk
    · cases hk; exact absurd rfl hne
    · exact hi.readBound hk (hholds _ hx) hne

theorem releaseRead (hi : Inv w due) (j : Nat) : Inv (w.releaseRead j) due := by
  unfold World.releaseRead
  cases hr : w.read j with
  | none => exact hi
  | some r =>
    exact (hi.takeRead hr).effects

theorem destroyRead (hi : Inv w due) (j : Nat) : Inv (w.destroyRead j) due := by
  cases hr : w.read j with
  | none =>
    have he : w.destroyRead j = w := by
      simp only [World.destroyRead, World.releaseRead, hr, World.setRead, set_none hr]
    rw [he]; exact hi
  | some r => exact (hi.releaseRead j).dropRead (World.releaseRead_read hr)

theorem assignRead (hi : Inv w due) (hr : w.read i = some r) (hij : i ≠ j) :
    Inv ((w.releaseRead i).transferRead i j) due :=
  (hi.releaseRead i).transferRead (World.releaseRead_read hr) hij

/-! ### Buffers -/

theorem reset (hi : Inv w due) (i : Nat) : Inv (w.reset i) due := by
  unfold World.reset
  cases hs : w.buf i with
  | none => exact hi
  | some s =>
    simp only [SharedBuffer.resetFields_eq]
    exact (hi.takeBuf hs).effects

theorem destroyBuf (hi : Inv w due) (i : Nat) : Inv (w.destroyBuf i) due := by
  cases hs : w.buf i with
  | none =>
    have he : w.destroyBuf i = w := by
      simp only [World.destroyBuf, World.reset, hs, World.setBuf, set_none hs]
    rw [he]; exact hi
  | some s => exact (hi.reset i).dropBuf (World.buf_reset hs) rfl

theorem clear (hi : Inv w due) (i : Nat) : Inv ((w.reset i).setSize i 0) due := (hi.reset i).setSize 0

theorem assign (hi : Inv w due) (i j : Nat) : Inv (w.assign i j) due := by
  unfold World.assign
  split
  · exact hi
  · cases hs : w.buf i with
    | none =>
      have he : (w.reset i).transfer i j = w := by simp only [World.reset, hs, World.transfer]
      rw [he]; exact hi
    | some s => exact (hi.reset i).transfer (World.buf_reset hs) rfl ‹_›

end Inv

end

end MemfdBuffer.Proc
