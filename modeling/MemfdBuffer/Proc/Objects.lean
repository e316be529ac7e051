import MemfdBuffer.Proc.Inv

/-!
# Objects made, moved and taken apart

The invariant under the changes that calls are made of: an object moves between slots, leaves its slot
with its effects due, or takes up a lease that is due.
-/

namespace MemfdBuffer.Proc

open Slots

section
variable {w w' : World} {due : List Effect} {b n i j k : Nat} {s : Buf} {r : ReadHandle} {h : WriteHandle}
  {x y : SharedBuffer} {state : HandleState} {f : SharedBuffer → Nat}

/-! ### Weights -/

namespace World

theorem bufSum_setBuf (hs : w.buf i = some s) (o : Option Buf) :
    (w.setBuf i o).bufSum f + f s.shared = w.bufSum f + o.elim 0 fun s => f s.shared := by
  have := total_set (f := fun s : Buf => f s.shared) hs o
  unfold bufSum; simp only [setBuf]; omega

theorem bufSum_addBuf : (w.addBuf s).bufSum f = w.bufSum f + f s.shared := by
  unfold bufSum addBuf; simp only [total_append]; omega

theorem bufSum_setRead (hr : w.read j = some r) (o : Option ReadHandle) :
    (w.setRead j o).bufSum f + promoted f r = w.bufSum f + o.elim 0 (promoted f) := by
  have := total_set (f := promoted f) hr o
  unfold bufSum; simp only [setRead]; omega

theorem bufSum_addRead : (w.addRead r).bufSum f = w.bufSum f + promoted f r := by
  unfold bufSum addRead; simp only [total_append]; omega

theorem Holds.le_bufSum (hx : w.Holds x) : f x ≤ w.bufSum f := by
  unfold bufSum
  rcases hx with ⟨i, s, hs, rfl⟩ | ⟨j, r, impl, hr, hp, rfl⟩
  · have := le_total (f := fun s : Buf => f s.shared) hs; omega
  · have := le_total (f := promoted f) hr
    rw [promoted, hp] at this; simp only [Option.elim_some] at this; omega

/-- Two live buffers weigh at most the whole. -/
theorem Holds.add_le_bufSum (hx : w.Holds x) (hy : w.Holds y) : x = y ∨ f x + f y ≤ w.bufSum f := by
  unfold bufSum
  rcases hx with ⟨i, s, hs, rfl⟩ | ⟨j, r, impl, hr, hp, rfl⟩ <;>
    rcases hy with ⟨i', s', hs', rfl⟩ | ⟨j', r', impl', hr', hp', rfl⟩
  · by_cases hi : i = i'
    · subst hi
      rw [hs] at hs'; cases hs'; exact .inl rfl
    · have := add_le_total (f := fun s : Buf => f s.shared) hs hs' hi
      exact .inr (by omega)
  · have h1 := le_total (f := fun s : Buf => f s.shared) hs
    have h2 := le_total (f := promoted f) hr'
    rw [promoted, hp'] at h2; simp only [Option.elim_some] at h2
    exact .inr (by omega)
  · have h1 := le_total (f := fun s : Buf => f s.shared) hs'
    have h2 := le_total (f := promoted f) hr
    rw [promoted, hp] at h2; simp only [Option.elim_some] at h2
    exact .inr (by omega)
  · by_cases hj : j = j'
    · subst hj
      rw [hr] at hr'; cases hr'
      rw [hp] at hp'; cases hp'; exact .inl rfl
    · have := add_le_total (f := promoted f) hr hr' hj
      rw [promoted, promoted, hp, hp'] at this
      simp only [Option.elim_some] at this
      exact .inr (by omega)

theorem exists_of_bufSum_pos (h : 0 < w.bufSum f) : ∃ x, w.Holds x ∧ 0 < f x := by
  rcases Nat.eq_zero_or_pos (total (fun s : Buf => f s.shared) w.bufs) with h0 | hpos
  · unfold bufSum at h
    rw [h0, Nat.zero_add] at h
    obtain ⟨j, r, hr, hf⟩ := exists_of_total_pos h
    cases hp : r.promotedBuffer with
    | none => rw [promoted, hp] at hf; cases hf
    | some impl =>
      rw [promoted, hp] at hf
      exact ⟨_, .inr ⟨j, r, impl, hr, hp, rfl⟩, hf⟩
  · obtain ⟨i, s, hs, hf⟩ := exists_of_total_pos hpos
    exact ⟨_, .buf hs, hf⟩

/-- The live buffers after an overwrite. -/
theorem Holds.of_setBuf {o : Option Buf} (hs : w.buf i = some s) (hx : (w.setBuf i o).Holds x) :
    w.Holds x ∨ ∃ s', o = some s' ∧ s'.shared = x := by
  rcases hx with ⟨k, t, ht, rfl⟩ | hx
  · rw [buf_setBuf hs] at ht
    split at ht
    · exact .inr ⟨t, ht, rfl⟩
    · exact .inl (.buf ht)
  · exact .inl (.inr hx)

theorem Holds.of_setRead {o : Option ReadHandle} (hr : w.read j = some r) (hx : (w.setRead j o).Holds x) :
    w.Holds x ∨ ∃ r' impl, o = some r' ∧ r'.promotedBuffer = some impl ∧ impl.sharedBuffer = x := by
  rcases hx with hx | ⟨k, r', impl, hr', hp, rfl⟩
  · exact .inl (.inl hx)
  · rw [read_setRead hr] at hr'
    split at hr'
    · exact .inr ⟨r', impl, hr', hp, rfl⟩
    · exact .inl (.inr ⟨k, r', impl, hr', hp, rfl⟩)

theorem buf_addBuf : (w.addBuf s).buf k = if k = w.bufs.length then some s else w.buf k := get_append

theorem read_addRead : (w.addRead r).read k = if k = w.reads.length then some r else w.read k := get_append

theorem write_addWrite : (w.addWrite h).write k = if k = w.writes.length then some h else w.write k :=
  get_append

end World

theorem count_leaseEffects (lease : Option Nat) (b : Nat) :
    (leaseEffects lease).count (.releaseReader b) = if lease = some b then 1 else 0 := by
  cases lease with
  | none => rfl
  | some c =>
    rw [leaseEffects_some, List.count_singleton]
    by_cases hc : c = b <;> simp [hc]

theorem count_leaseEffects_poolFree (lease : Option Nat) (b : Nat) :
    (leaseEffects lease).count (.poolFree b) = 0 := by
  cases lease <;> simp

theorem Local.resetEffects (h : Local w x) :
    x.resetEffects = leaseEffects x.heldReaderLease ++ x.dataPtr.toList.map .poolFree := by
  unfold SharedBuffer.resetEffects
  rw [h.deleter]
  cases x.dataPtr <;> rfl

theorem Local.count_poolFree (h : Local w x) (b : Nat) :
    x.resetEffects.count (.poolFree b) = points (·.dataPtr) b x := by
  rw [h.resetEffects, List.count_append, count_leaseEffects_poolFree, points]
  cases x.dataPtr with
  | none => rfl
  | some c => by_cases hc : c = b <;> simp [hc]

theorem Local.count_releaseReader (h : Local w x) (b : Nat) :
    x.resetEffects.count (.releaseReader b) = points (·.heldReaderLease) b x := by
  rw [h.resetEffects, List.count_append, count_leaseEffects, points]
  cases x.dataPtr <;> simp

namespace Inv

/-- A block has at most one buffer. -/
theorem holds_unique (hi : Inv w due) (hx : w.Holds x) (hy : w.Holds y) (hxb : x.dataPtr = some b)
    (hyb : y.dataPtr = some b) : x = y := by
  obtain ⟨block, hb, -⟩ := (hi.buffers hx).block hxb
  have ho := hi.owned hb
  rcases hx.add_le_bufSum (f := points (·.dataPtr) b) hy with he | hle
  · exact he
  · rw [points_eq_one hxb, points_eq_one hyb] at hle
    unfold World.owners at ho
    split at ho <;> omega

/-- A state has at most one buffer. -/
theorem shares_unique (hi : Inv w due) (hx : w.Holds x) (hy : w.Holds y) (hxn : x.handleState = some n)
    (hyn : y.handleState = some n) : x = y := by
  have hs := hi.sharers n
  rcases hx.add_le_bufSum (f := points (·.handleState) n) hy with he | hle
  · exact he
  · rw [points_eq_one hxn, points_eq_one hyn] at hle
    unfold World.sharers at hs; omega

/-! ### Moves between slots -/

theorem rearrangeBufs (hi : Inv w due) {bufs : List (Option Buf)}
    (htotal : ∀ f : SharedBuffer → Nat, f {} = 0 →
      total (fun s => f s.shared) bufs = total (fun s => f s.shared) w.bufs)
    (hmem : ∀ i s, get bufs i = some s → 0 < s.elem ∧ (s.shared = {} ∨ w.Holds s.shared)) :
    Inv { w with bufs := bufs } due := by
  have hsum : ∀ f : SharedBuffer → Nat, f {} = 0 → World.bufSum { w with bufs := bufs } f = w.bufSum f :=
    fun f hf => by unfold World.bufSum; rw [htotal f hf]
  have hholds : ∀ x, World.Holds { w with bufs := bufs } x → x = {} ∨ w.Holds x := by
    rintro x (⟨i, s, hs, rfl⟩ | hx)
    · exact (hmem i s hs).2
    · exact .inr (.inr hx)
  refine ⟨hi.pool, fun hs => (hmem _ _ hs).1, fun hx => ?_,
    fun hr => (hi.reads hr).congr (fun b x hb => ⟨x, hb⟩) le_rfl,
    fun hl => (hi.writes hl).congr (fun b x hb => ⟨x, hb⟩) le_rfl, fun hb => ?_, fun hb => ?_,
    hi.states, fun n => ?_, fun hr hx hne he => ?_, fun hl hx hne he => ?_⟩
  · rcases hholds _ hx with rfl | hx
    · exact .default _
    · exact (hi.buffers hx).congr (fun b x hb => ⟨x, hb, rfl⟩) le_rfl
  · unfold World.owners; rw [hsum _ rfl]; exact hi.owned hb
  · unfold World.leases; rw [hsum _ rfl]; exact hi.leased hb
  · unfold World.sharers; rw [hsum _ rfl]; exact hi.sharers n
  · rcases hholds _ hx with rfl | hx
    · exact absurd he.symm hne
    · exact hi.readBound hr hx hne he
  · rcases hholds _ hx with rfl | hx
    · exact absurd he.symm ((hi.writes hl).bound hne)
    · exact hi.writeBound hl hx hne he

theorem rearrangeReads (hi : Inv w due) {reads : List (Option ReadHandle)}
    (htotal : ∀ g : ReadHandle → Nat, g {} = 0 → total g reads = total g w.reads)
    (hmem : ∀ j r, get reads j = some r → r = {} ∨ ∃ k, w.read k = some r) :
    Inv { w with reads := reads } due := by
  have hsum : ∀ f : SharedBuffer → Nat, World.bufSum { w with reads := reads } f = w.bufSum f :=
    fun f => by unfold World.bufSum; rw [htotal (promoted f) rfl]
  have hholds : ∀ x, World.Holds { w with reads := reads } x → w.Holds x := by
    rintro x (hx | ⟨j, r, impl, hr, hp, rfl⟩)
    · exact .inl hx
    · rcases hmem j r hr with rfl | ⟨k, hk⟩
      · cases hp
      · exact .inr ⟨k, r, impl, hk, hp, rfl⟩
  refine ⟨hi.pool, hi.elem, fun hx => ?_, fun hr => ?_,
    fun hl => (hi.writes hl).congr (fun b x hb => ⟨x, hb⟩) le_rfl, fun hb => ?_, fun hb => ?_,
    fun hn => ?_, fun n => ?_, fun hr hx hne he => ?_, fun hl hx hne he => ?_⟩
  · exact (hi.buffers (hholds _ hx)).congr (fun b x hb => ⟨x, hb, rfl⟩) le_rfl
  · rcases hmem _ _ hr with rfl | ⟨k, hk⟩
    · exact .default _
    · exact (hi.reads hk).congr (fun b x hb => ⟨x, hb⟩) le_rfl
  · unfold World.owners; rw [hsum]; exact hi.owned hb
  · unfold World.leases; rw [hsum, htotal _ rfl]; exact hi.leased hb
  · unfold World.readers; rw [htotal _ rfl]; exact hi.states hn
  · unfold World.sharers; rw [hsum]; exact hi.sharers n
  · rcases hmem _ _ hr with rfl | ⟨k, hk⟩
    · exact absurd rfl hne
    · exact hi.readBound hk (hholds _ hx) hne he
  · exact hi.writeBound hl (hholds _ hx) hne he

theorem rearrangeWrites (hi : Inv w due) {writes : List (Option WriteHandle)}
    (htotal : ∀ g : WriteHandle → Nat, g {} = 0 → total g writes = total g w.writes)
    (hmem : ∀ l h, get writes l = some h → h = {} ∨ ∃ k, w.write k = some h) :
    Inv { w with writes := writes } due := by
  refine ⟨hi.pool, hi.elem, fun hx => (hi.buffers hx).congr (fun b x hb => ⟨x, hb, rfl⟩) le_rfl,
    fun hr => (hi.reads hr).congr (fun b x hb => ⟨x, hb⟩) le_rfl, fun hl => ?_, hi.owned, hi.leased,
    fun hn => ?_, hi.sharers, hi.readBound, fun hl hx hne he => ?_⟩
  · rcases hmem _ _ hl with rfl | ⟨k, hk⟩
    · exact .default _
    · exact (hi.writes hk).congr (fun b x hb => ⟨x, hb⟩) le_rfl
  · unfold World.writers; rw [htotal _ rfl]; exact hi.states hn
  · rcases hmem _ _ hl with rfl | ⟨k, hk⟩
    · exact absurd rfl hne
    · exact hi.writeBound hk hx hne he

/-- An emptied buffer is destroyed. -/
theorem dropBuf (hi : Inv w due) (hs : w.buf i = some s) (he : s.shared = {}) : Inv (w.setBuf i none) due := by
  refine hi.rearrangeBufs (fun f hf => ?_) fun k t ht => ?_
  · have := total_set (f := fun s : Buf => f s.shared) hs none
    rw [he, hf] at this; simpa using this
  · rw [get_set hs] at ht
    split at ht
    · cases ht
    · exact ⟨hi.elem ht, .inr (.buf ht)⟩

theorem setSize (hi : Inv w due) (size : Nat) : Inv (w.setSize i size) due := by
  unfold World.setSize
  cases hs : w.buf i with
  | none => exact hi
  | some s =>
    refine hi.rearrangeBufs (fun f hf => ?_) fun k t ht => ?_
    · have := total_set (f := fun s : Buf => f s.shared) hs (some (s.withSize size))
      simp only [Option.elim_some, Buf.shared_withSize] at this; omega
    · rw [get_set hs] at ht
      split at ht
      · cases ht
        exact ⟨(hi.elem hs :), .inr (World.Holds.buf hs :)⟩
      · exact ⟨hi.elem ht, .inr (.buf ht)⟩

theorem addEmpty (hi : Inv w due) (hs : 0 < s.elem) (he : s.shared = {}) : Inv (w.addBuf s) due := by
  refine hi.rearrangeBufs (fun f hf => by simp [he, hf]) fun k t ht => ?_
  rw [get_append] at ht
  split at ht
  · cases ht
    exact ⟨hs, .inl he⟩
  · exact ⟨hi.elem ht, .inr (.buf ht)⟩

/-- A move onto an emptied buffer. -/
theorem transfer (hi : Inv w due) (hs : w.buf i = some s) (he : s.shared = {}) (hij : i ≠ j) :
    Inv (w.transfer i j) due := by
  unfold World.transfer
  rw [hs]
  cases ht : w.buf j with
  | none => exact hi
  | some t =>
    simp only [SharedBuffer.moveFrom_eq]
    have ht' : (w.setBuf i (some (s.withShared t.shared))).buf j = some t := by
      rw [World.buf_setBuf hs, if_neg (Ne.symm hij), ht]
    refine hi.rearrangeBufs (fun f hf => ?_) fun k u hu => ?_
    · have h1 := total_set (f := fun s : Buf => f s.shared) hs (some (s.withShared t.shared))
      have h2 := total_set (f := fun s : Buf => f s.shared) ht' (some (t.withShared {}))
      simp only [Option.elim_some, Buf.shared_withShared, he, hf] at h1 h2
      simp only [World.setBuf] at h2 ⊢; omega
    · change World.buf ((w.setBuf i _).setBuf j _) k = some u at hu
      rw [World.buf_setBuf ht', World.buf_setBuf hs] at hu
      split at hu
      · cases hu
        exact ⟨(hi.elem ht :), .inl rfl⟩
      · split at hu
        · cases hu
          exact ⟨(hi.elem hs :), .inr (World.Holds.buf ht :)⟩
        · exact ⟨hi.elem hu, .inr (.buf hu)⟩

theorem dropRead (hi : Inv w due) (hr : w.read j = some {}) : Inv (w.setRead j none) due := by
  refine hi.rearrangeReads (fun g hg => ?_) fun k t ht => ?_
  · have := total_set (f := g) hr none
    rw [hg] at this; simpa using this
  · rw [get_set hr] at ht
    split at ht
    · cases ht
    · exact .inr ⟨k, ht⟩

theorem addBlankRead (hi : Inv w due) : Inv (w.addRead {}) due := by
  refine hi.rearrangeReads (fun g hg => by simp [hg]) fun k t ht => ?_
  rw [get_append] at ht
  split at ht
  · cases ht; exact .inl rfl
  · exact .inr ⟨k, ht⟩

theorem transferRead (hi : Inv w due) (hr : w.read i = some {}) (hij : i ≠ j) :
    Inv (w.transferRead i j) due := by
  unfold World.transferRead
  cases ht : w.read j with
  | none => exact hi
  | some t =>
    have ht' : (w.setRead i (some t)).read j = some t := by
      rw [World.read_setRead hr, if_neg (Ne.symm hij), ht]
    refine hi.rearrangeReads (fun g hg => ?_) fun k u hu => ?_
    · have h1 := total_set (f := g) hr (some t)
      have h2 := total_set (f := g) ht' (some {})
      simp only [Option.elim_some, hg] at h1 h2
      simp only [World.setRead] at h2 ⊢; omega
    · change World.read ((w.setRead i _).setRead j _) k = some u at hu
      rw [World.read_setRead ht', World.read_setRead hr] at hu
      split at hu
      · cases hu; exact .inl rfl
      · split at hu
        · cases hu; exact .inr ⟨j, ht⟩
        · exact .inr ⟨k, hu⟩

theorem dropBlankWrite (hi : Inv w due) (hl : w.write j = some {}) : Inv (w.setWrite j none) due := by
  refine hi.rearrangeWrites (fun g hg => ?_) fun k t ht => ?_
  · have := total_set (f := g) hl none
    rw [hg] at this; simpa using this
  · rw [get_set hl] at ht
    split at ht
    · cases ht
    · exact .inr ⟨k, ht⟩

theorem addBlankWrite (hi : Inv w due) : Inv (w.addWrite {}) due := by
  refine hi.rearrangeWrites (fun g hg => by simp [hg]) fun k t ht => ?_
  rw [get_append] at ht
  split at ht
  · cases ht; exact .inl rfl
  · exact .inr ⟨k, ht⟩

theorem transferBlankWrite (hi : Inv w due) (hl : w.write i = some {}) (hij : i ≠ j) :
    Inv (w.transferWrite i j) due := by
  unfold World.transferWrite
  cases ht : w.write j with
  | none => exact hi
  | some t =>
    have ht' : (w.setWrite i (some t)).write j = some t := by
      rw [World.write_setWrite hl, if_neg (Ne.symm hij), ht]
    refine hi.rearrangeWrites (fun g hg => ?_) fun k u hu => ?_
    · have h1 := total_set (f := g) hl (some t)
      have h2 := total_set (f := g) ht' (some {})
      simp only [Option.elim_some, hg] at h1 h2
      simp only [World.setWrite] at h2 ⊢; omega
    · change World.write ((w.setWrite i _).setWrite j _) k = some u at hu
      rw [World.write_setWrite ht', World.write_setWrite hl] at hu
      split at hu
      · cases hu; exact .inl rfl
      · split at hu
        · cases hu; exact .inr ⟨j, ht⟩
        · exact .inr ⟨k, hu⟩

/-! ### Objects taken apart -/

/-- A buffer is emptied, its effects are due. -/
theorem takeBuf (hi : Inv w due) (hs : w.buf i = some s) :
    Inv (w.setBuf i (some (s.withShared {}))) (s.shared.resetEffects ++ due) := by
  have hloc := hi.buffers (.buf hs)
  have hsum : ∀ f : SharedBuffer → Nat, f {} = 0 →
      (w.setBuf i (some (s.withShared {}))).bufSum f + f s.shared = w.bufSum f := fun f hf => by
    have := World.bufSum_setBuf (f := f) hs (some (s.withShared {}))
    simp only [Option.elim_some, Buf.shared_withShared, hf] at this; omega
  have hholds : ∀ x, (w.setBuf i (some (s.withShared {}))).Holds x → x = {} ∨ w.Holds x := fun x hx => by
    rcases World.Holds.of_setBuf hs hx with hx | ⟨s', he, rfl⟩
    · exact .inr hx
    · cases he; exact .inl rfl
  refine ⟨hi.pool, fun ht => ?_, fun hx => ?_, fun hr => (hi.reads hr).congr (fun b x hb => ⟨x, hb⟩) le_rfl,
    fun hl => (hi.writes hl).congr (fun b x hb => ⟨x, hb⟩) le_rfl, fun {b _} hb => ?_, fun {b _} hb => ?_,
    hi.states, fun n => ?_, fun hr hx hne he => ?_, fun hl hx hne he => ?_⟩
  · rw [World.buf_setBuf hs] at ht
    split at ht
    · cases ht; exact (hi.elem hs :)
    · exact hi.elem ht
  · rcases hholds _ hx with rfl | hx
    · exact .default _
    · exact (hi.buffers hx).congr (fun b x hb => ⟨x, hb, rfl⟩) le_rfl
  · have h1 := hsum (points (·.dataPtr) b) rfl
    have h2 := hi.owned hb
    unfold World.owners at h2 ⊢
    rw [List.count_append, hloc.count_poolFree]; omega
  · have h1 := hsum (points (·.heldReaderLease) b) rfl
    have h2 := hi.leased hb
    unfold World.leases at h2 ⊢
    rw [List.count_append, hloc.count_releaseReader]
    simp only [World.setBuf] at h1 h2 ⊢; omega
  · have h1 := hsum (points (·.handleState) n) rfl
    have h2 := hi.sharers n
    unfold World.sharers at h2 ⊢; omega
  · rcases hholds _ hx with rfl | hx
    · exact absurd he.symm hne
    · exact hi.readBound hr hx hne he
  · rcases hholds _ hx with rfl | hx
    · exact absurd he.symm ((hi.writes hl).bound hne)
    · exact hi.writeBound hl hx hne he

end Inv

end

end MemfdBuffer.Proc
