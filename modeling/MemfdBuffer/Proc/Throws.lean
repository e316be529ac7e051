import MemfdBuffer.Proc.Contents
import MemfdBuffer.Proc.Live
import MemfdBuffer.Proc.Capability

/-!
# A call that throws

Where a call throws, no buffer has changed, and every block that was taken on the way is back in the pool. The paths
that throw after an allocation are those of `resize` and `clone` whose source refuses a read handle; the write handle
on a new buffer and the read handle on a promoted one are never refused.
-/

namespace MemfdBuffer.Proc

open Slots

/-- Every buffer is as it was and no block is in use that was not. -/
structure Undisturbed (w w' : World) : Prop where
  buf {k : Nat} {s : Buf} : w.buf k = some s → ∃ s', w'.buf k = some s' ∧ s'.elem = s.elem ∧
    s'.impl.size = s.impl.size ∧ s'.shared.dataPtr = s.shared.dataPtr ∧ w'.stateOf s'.shared = w.stateOf s.shared
  contents {k b : Nat} {s : Buf} : w.buf k = some s → s.shared.dataPtr = some b → w'.payload b = w.payload b
  blocks {b : Nat} {block : SharedBufferBlock} : w'.pool.allBlocks[b]? = some block → block.inUse = true →
    ∃ block', w.pool.allBlocks[b]? = some block' ∧ block'.inUse = true

section
variable {w w₁ w₂ w' : World} {i j k l n b c elem count : Nat} {s t : Buf} {r : ReadHandle} {x : SharedBuffer}
  {y : Exn} {env : AllocEnv} {pool : Pool}

/-- The blocks in use are those of the buffers. -/
theorem Inv.inUse_of_holds (hi : Inv w []) (hi' : Inv w' [])
    (hx : ∀ x, w'.Holds x → ∃ y, w.Holds y ∧ y.dataPtr = x.dataPtr) {block : SharedBufferBlock}
    (hb : w'.pool.allBlocks[b]? = some block) (hu : block.inUse = true) :
    ∃ block', w.pool.allBlocks[b]? = some block' ∧ block'.inUse = true := by
  have ho := hi'.owned hb
  rw [if_pos hu, List.count_nil, Nat.add_zero] at ho
  unfold World.owners at ho
  obtain ⟨x, hheld, hpos⟩ := World.exists_of_bufSum_pos (by omega : 0 < w'.bufSum (points (·.dataPtr) b))
  obtain ⟨z, hz, hzx⟩ := hx x hheld
  have hzb := hzx.trans (points_pos.1 hpos)
  obtain ⟨block', hb', -⟩ := (hi.buffers hz).block hzb
  refine ⟨block', hb', ?_⟩
  have ho' := hi.owned hb'
  have hle := hz.le_bufSum (f := points (·.dataPtr) b)
  rw [points_eq_one hzb] at hle
  unfold World.owners at ho'
  by_contra hno
  rw [if_neg hno] at ho'
  omega

namespace Undisturbed

theorem refl (w : World) : Undisturbed w w :=
  ⟨fun hs => ⟨_, hs, rfl, rfl, rfl, rfl⟩, fun _ _ => rfl, fun hb hu => ⟨_, hb, hu⟩⟩

/-- The states that are there stay as they are where others are made. -/
theorem stateOf_prefix (hi : Inv w []) (hx : w.Holds x) (h : w.states <+: w'.states) : w'.stateOf x = w.stateOf x := by
  unfold World.stateOf
  cases hn : x.handleState with
  | none => rfl
  | some n =>
    rw [Option.bind_some, Option.bind_some]
    have hlt := (hi.buffers hx).state hn
    obtain ⟨states, he⟩ := h
    rw [← he, List.getElem?_append_left hlt]

/-- A handle is refused, with its state made on the way. -/
theorem readied (hi : Inv w []) (hi' : Inv w' []) (hs : w.buf i = some s) (h : Readied w i s w' n) :
    Undisturbed w w' where
  buf {k t} ht := by
    rw [h.buf]
    split
    · rename_i hk
      rw [hk, hs] at ht
      cases ht
      refine ⟨_, rfl, rfl, rfl, rfl, ?_⟩
      show World.stateOf w' { s.shared with handleState := some n } = _
      rw [World.stateOf, Option.bind_some, h.state, Option.getD_some]
    · exact ⟨t, ht, rfl, rfl, rfl, stateOf_prefix hi (.buf ht) h.states⟩
  contents _ _ := by
    unfold World.payload
    rw [h.pool]
  blocks := by
    refine hi.inUse_of_holds hi' fun x hx => ?_
    rcases hx with ⟨k, t, ht, rfl⟩ | ⟨j, r, impl, hr, hp, rfl⟩
    · rw [h.buf] at ht
      split at ht
      · cases ht
        exact ⟨s.shared, .buf hs, rfl⟩
      · exact ⟨t.shared, .buf ht, rfl⟩
    · unfold World.read at hr
      rw [h.reads] at hr
      exact ⟨_, .inr ⟨j, r, impl, hr, hp, rfl⟩, rfl⟩

/-- No block could be had. -/
theorem withPool (hi : Inv w []) (he : w.pool.allocate n env = (pool, .error y)) : Undisturbed w (w.withPool pool) where
  buf hs := ⟨_, hs, rfl, rfl, rfl, rfl⟩
  contents {k b s} hs hb := by
    have hsteady := Pool.Steady.allocate (p := w.pool) (n := n) env
    rw [he] at hsteady
    obtain ⟨block, hblock, -⟩ := (hi.buffers (.buf hs)).block hb
    have hpay : w.payload b = some block.payload := by
      unfold World.payload
      rw [hblock, Option.map_some]
    exact ((Frame.withPool hsteady).payload hpay id).trans hpay.symm
  blocks := hi.inUse_of_holds (hi.failBlock he) fun x hx => ⟨x, hx, rfl⟩

end Undisturbed

namespace World

theorem buf_destroyBuf_ne (ht : w.buf j = some t) (hk : k ≠ j) : (w.destroyBuf j).buf k = w.buf k :=
  ((buf_setBuf (buf_reset ht)).trans (if_neg hk)).trans (buf_reset_ne hk)

theorem states_destroyBuf : (w.destroyBuf j).states = w.states := by
  unfold destroyBuf reset
  split <;> rfl

theorem reads_destroyBuf : (w.destroyBuf j).reads = w.reads := by
  unfold destroyBuf reset
  split <;> rfl

/-- A read handle on one buffer leaves the others as they are. -/
theorem buf_getReadHandle_ne (hi : Inv w []) {res : Except Exn Nat} (he : w.getReadHandle i = some (w', res))
    (hk : k ≠ i) : w'.buf k = w.buf k := by
  obtain ⟨s, n, w₁, -, hready, -, ⟨x, -, rfl, -⟩ | ⟨-, -, w₂, hm, rfl⟩⟩ := getReadHandle_cases hi he
  · rw [hready.buf, if_neg hk]
  · obtain ⟨pool, rfl⟩ := makeLease_frame hm
    exact (hready.buf k).trans (if_neg hk)

/-- A copy to a new buffer fails for the source only. -/
theorem copyInto_refused (hi : Inv w []) (ht : w.buf j = some t) (hij : i ≠ j) (hc : t.shared.dataPtr = some c)
    (hsize : t.shared.size ≠ 0) (hnone : t.shared.handleState = none)
    (he : w.copyInto i j n = some (w', .error y)) : ∃ x, w.getReadHandle i = some (w', .error x) := by
  rcases copyInto_cases he with ⟨x, -, h₁⟩ | ⟨w₁, k, h₁, ⟨x, w₂, -, h₂, -⟩ | ⟨w₂, l, bytes, w₃, hres, -⟩⟩
  · exact ⟨x, h₁⟩
  · have ht₁ := (buf_getReadHandle_ne hi h₁ hij.symm).trans ht
    exact absurd h₂ (getWriteHandle_new (hi.getReadHandle h₁) ht₁ hc hsize hnone)
  · cases hres

end World

/-- A copy to a new buffer that fails, with the new buffer given back. -/
theorem Undisturbed.copy (hi : Inv w []) (hs : w.buf i = some s) (halloc : w.allocateRaw s.elem count env = (w₁, .ok j))
    (hcopy : w₁.copyInto i j n = some (w₂, .error y)) : Undisturbed w (w₂.destroyBuf j) := by
  have helem := hi.elem hs
  have hi₁ := hi.allocateRaw helem halloc
  obtain ⟨hcount, hj, t, c, q, ht, -, -, hnone, hc, hsize, hspare, -⟩ := World.allocateRaw_new hi helem halloc
  have hlt := lt_length hs
  have hij : i ≠ j := by omega
  have hpos : t.shared.size ≠ 0 := by
    have := Nat.mul_pos hcount helem
    omega
  obtain ⟨x, h₁⟩ := World.copyInto_refused hi₁ ht hij hc hpos hnone hcopy
  obtain ⟨pool, block, rfl⟩ : ∃ pool t, w₁ = (w.withPool pool).addBuf t := by
    rcases World.allocateRaw_cases hi halloc with ⟨x, hx, -⟩ | ⟨pool, b, block, -, -, -, -, rfl⟩
    · cases hx
    · exact ⟨pool, _, rfl⟩
  -- the slots of `w` keep clear of slot `j`
  have hold : ∀ {k u}, w.buf k = some u → ((w.withPool pool).addBuf block).buf k = some u ∧ k ≠ j := by
    intro k u hk
    have hlt := lt_length hk
    exact ⟨(World.buf_addBuf.trans (if_neg (Nat.ne_of_lt hlt))).trans hk, by omega⟩
  obtain ⟨hs₁, -⟩ := hold hs
  obtain ⟨u, m, w₃, hu, hready, -, ⟨z, -, rfl, -⟩ | ⟨hok, -⟩⟩ := World.getReadHandle_cases hi₁ h₁
  · rw [hs₁] at hu
    cases hu
    have hi₂ := hi₁.copyInto hcopy
    have hdis := Undisturbed.readied hi₁ hi₂ hs₁ hready
    have ht₂ : w₂.buf j = some t := (hready.buf j).trans ((if_neg hij.symm).trans ht)
    refine ⟨fun {k u} hk => ?_, fun {k b u} hk hb => ?_, hi.inUse_of_holds (hi₂.destroyBuf j) fun x hx => ?_⟩
    · obtain ⟨hk₁, hkj⟩ := hold hk
      obtain ⟨u', hu', h1, h2, h3, h4⟩ := hdis.buf hk₁
      refine ⟨u', (World.buf_destroyBuf_ne ht₂ hkj).trans hu', h1, h2, h3, ?_⟩
      rw [World.stateOf, World.states_destroyBuf]
      exact h4
    · obtain ⟨hk₁, -⟩ := hold hk
      obtain ⟨block', hblock, -⟩ := (hi.buffers (.buf hk)).block hb
      have hpay : w.payload b = some block'.payload := by
        unfold World.payload
        rw [hblock, Option.map_some]
      have hpay₁ := (World.allocateRaw_frame halloc).payload hpay id
      rw [hpay]
      exact (World.destroyBuf_frame j).payload ((hdis.contents hk₁ hb).trans hpay₁) id
    · rcases hx with ⟨k, u, hu, rfl⟩ | ⟨k, r, impl, hr, hp, rfl⟩
      · by_cases hkj : k = j
        · rw [hkj, World.buf_destroyBuf ht₂] at hu
          cases hu
        · rw [World.buf_destroyBuf_ne ht₂ hkj, hready.buf] at hu
          split at hu
          · cases hu
            exact ⟨s.shared, .buf hs, rfl⟩
          · have hu' := World.buf_addBuf.symm.trans hu
            split at hu'
            · rename_i hlast
              exact absurd (hlast.trans hj.symm) hkj
            · exact ⟨u.shared, .buf hu', rfl⟩
      · unfold World.read at hr
        rw [World.reads_destroyBuf, hready.reads] at hr
        exact ⟨_, .inr ⟨k, r, impl, hr, hp, rfl⟩, rfl⟩
  · cases hok

namespace World

theorem pool_destroyWrite : (w.destroyWrite l).pool = w.pool := by
  obtain ⟨states, writes, heq⟩ := w.releaseWrite_eq l
  rw [destroyWrite, heq]
  rfl

theorem pool_getWriteHandle (hi : Inv w []) {res : Except Exn Nat} (he : w.getWriteHandle i = some (w', res)) :
    w'.pool = w.pool := by
  obtain ⟨s, -, ⟨x, -, rfl, -⟩ | ⟨n, w₁, hready, -, ⟨x, -, rfl, -⟩ | ⟨-, -, -, -, rfl⟩⟩⟩ := getWriteHandle_cases hi he
  · rfl
  · exact hready.pool
  · exact hready.pool

theorem fill_keeps {bytes : List UInt8} (he : w.fill l bytes = some w') :
    w'.writes = w.writes ∧ SameControl w.pool w'.pool := by
  obtain ⟨h, b, block, -, -, -, -, rfl⟩ := fill_ok he
  exact ⟨rfl, SameControl.modifyBlock fun _ => rfl⟩

/-- A new buffer whose writer has come and gone can be read. -/
theorem getReadHandle_promoted (hi : Inv w []) (helem : 0 < elem) (halloc : w.allocateRaw elem count env = (w₁, .ok j))
    {bytes : List UInt8} {w₃ : World} (h₂ : w₁.getWriteHandle j = some (w₂, .ok l)) (h₃ : w₂.fill l bytes = some w₃) :
    (w₃.destroyWrite l).getReadHandle j ≠ some (w', .error y) := by
  intro he
  have hi₁ := hi.allocateRaw helem halloc
  have hi₂ := hi₁.getWriteHandle h₂
  have hi₄ := (hi₂.fill h₃).destroyWrite l
  obtain ⟨hwrites, hcontrol⟩ := fill_keeps h₃
  obtain ⟨t, m, h, ht, ht₂, hl, hptr, hm⟩ := getWriteHandle_slot hi₁ h₂
  have hl₃ : w₃.write l = some h := by
    unfold write
    rw [hwrites]
    exact hl
  have ht₄ : (w₃.destroyWrite l).buf j = some (t.withShared { t.shared with handleState := some m }) := by
    unfold buf
    rw [bufs_writeThrough h₃]
    exact ht₂
  obtain ⟨s, n, w₅, hs, -, -, ⟨x, -, -, hu | ⟨c, hc, hfull⟩⟩ | ⟨hok, -⟩⟩ := getReadHandle_cases hi₄ he
  · rw [ht₄] at hs
    cases hs
    exact destroyWrite_ends hl₃ hm ((stateOf_inUse rfl).1 hu)
  · rw [ht₄] at hs
    cases hs
    -- nobody reads the block yet
    rcases allocateRaw_cases hi halloc with ⟨x, hx, -⟩ | ⟨pool, d, block, hj, ha, hd, -, rfl⟩
    · cases hx
    cases hj
    have hnew : ((w.withPool pool).addBuf ⟨elem, count, SharedBuffer.allocated d block block.payloadSize⟩).buf
        w.bufs.length = some ⟨elem, count, SharedBuffer.allocated d block block.payloadSize⟩ :=
      buf_addBuf.trans (if_pos rfl)
    cases hnew.symm.trans ht
    cases (hi₄.buffers (.buf ht₄)).control.symm.trans hc
    obtain ⟨block', hd', -, -, -, -, -, hzero⟩ := (hi.pool.allocate_ok ha).1.block
    rw [hd] at hd'
    cases hd'
    have hsame := hcontrol c
    rw [pool_getWriteHandle hi₁ h₂, ← pool_destroyWrite (w := w₃) (l := l)] at hsame
    have hsome := hsame.trans (congrArg (Option.map (·.control)) hd)
    obtain ⟨block', hb', he'⟩ := Option.map_eq_some_iff.1 hsome
    have hrefused := hfull block' hb'
    rw [he', hzero] at hrefused
    revert hrefused
    decide
  · cases hok

end World

namespace Undisturbed

theorem allocateRaw (hi : Inv w []) (he : w.allocateRaw elem count env = (w', .error y)) : Undisturbed w w' := by
  rcases World.allocateRaw_cases hi he with ⟨x, -, rfl | ⟨pool, ha, rfl⟩⟩ | ⟨pool, b, block, hok, -⟩
  · exact .refl _
  · exact withPool hi ha
  · cases hok

theorem construct (hi : Inv w []) (he : w.construct elem count env = (w', .error y)) : Undisturbed w w' := by
  unfold World.construct at he
  split at he
  · cases he
  · exact allocateRaw hi he

theorem getReadHandle (hi : Inv w []) (he : w.getReadHandle i = some (w', .error y)) : Undisturbed w w' := by
  obtain ⟨s, n, w₁, hs, hready, hi₁, ⟨x, -, rfl, -⟩ | ⟨hok, -⟩⟩ := World.getReadHandle_cases hi he
  · exact readied hi hi₁ hs hready
  · cases hok

theorem getWriteHandle (hi : Inv w []) (he : w.getWriteHandle i = some (w', .error y)) : Undisturbed w w' := by
  obtain ⟨s, hs, ⟨x, -, rfl, -⟩ | ⟨n, w₁, hready, hi₁, ⟨x, -, rfl, -⟩ | ⟨hok, -⟩⟩⟩ := World.getWriteHandle_cases hi he
  · exact .refl _
  · exact readied hi hi₁ hs hready
  · cases hok

theorem holdReaderReference (he : w.holdReaderReference i = some (w', .error y)) : Undisturbed w w' := by
  obtain rfl | ⟨s, pool, -, -, hres, -⟩ := World.holdReaderReference_cases he
  · exact .refl _
  · cases hres

theorem resize (hi : Inv w []) (he : w.resize i count env = some (w', .error y)) : Undisturbed w w' := by
  obtain ⟨s, hs, ⟨-, -, hres⟩ | ⟨-, -, -, hres⟩ | ⟨-, -, ⟨x, -, ha⟩ | ⟨w₁, j, ha, ⟨-, -, hres⟩ |
    ⟨-, ⟨x, w₂, -, hc, rfl⟩ | ⟨w₂, -, -, hres⟩⟩⟩⟩⟩ := World.resize_cases he
  · cases hres
  · cases hres
  · exact allocateRaw hi ha
  · cases hres
  · exact copy hi hs ha hc
  · cases hres

theorem toCpu (hi : Inv w []) (he : w.toCpu i = some (w', .error y)) : Undisturbed w w' := by
  obtain ⟨s, -, ⟨-, -, hres⟩ | ⟨-, ⟨x, -, h₁⟩ | ⟨w₁, r, bytes, hres, -⟩⟩⟩ := World.toCpu_cases he
  · cases hres
  · exact getReadHandle hi h₁
  · cases hres

theorem clone (hi : Inv w []) (he : w.clone i env = some (w', .error y)) : Undisturbed w w' := by
  obtain ⟨s, hs, ⟨x, -, ha⟩ | ⟨w₁, j, ha, ⟨-, -, hres⟩ | ⟨hsize, ⟨x, w₂, -, hc, rfl⟩ | ⟨hres, -⟩⟩⟩⟩ :=
    World.clone_cases he
  · exact construct hi ha
  · cases hres
  · unfold World.construct at ha
    rw [if_neg hsize] at ha
    exact copy hi hs ha hc
  · cases hres

theorem promote (hi : Inv w []) (helem : 0 < elem) {source : List UInt8}
    (he : w.promote elem count source env = some (w', .error y)) : Undisturbed w w' := by
  rcases World.promote_cases he with ⟨-, rfl, -⟩ | ⟨hcount, ⟨x, -, ha⟩ | ⟨w₁, j, ha, hrest⟩⟩
  · exact .refl _
  · exact construct hi ha
  have hpos := Nat.mul_pos (Nat.pos_of_ne_zero hcount) helem
  unfold World.construct at ha
  rw [if_neg (by omega)] at ha
  obtain ⟨-, -, t, c, q, ht, -, -, hnone, hc, hsize, -⟩ := World.allocateRaw_new hi Nat.one_pos ha
  rcases hrest with ⟨x, w₂, -, h₂, -⟩ | ⟨w₂, l, w₃, h₂, h₃, ⟨x, w₄, -, h₄, -⟩ | ⟨w₄, r, -, -, hres⟩⟩
  · exact absurd h₂ (World.getWriteHandle_new (hi.allocateRaw Nat.one_pos ha) ht hc (by omega) hnone)
  · exact absurd h₄ (World.getReadHandle_promoted hi Nat.one_pos ha h₂ h₃)
  · cases hres

end Undisturbed

end

/-- A call that throws leaves no trace. -/
theorem exec_threw {w w' : World} {op : Op} {y : Exn} (hi : Inv w []) (he : exec w op = some (w', .threw y)) :
    Undisturbed w w' := by
  generalize hout : Out.threw y = out at he
  have hdone (u : Unit) : (fun _ => Out.done) u ≠ .threw y := by
    intro h
    cases h
  have hslot (i : Nat) : Out.slot i ≠ .threw y := by
    intro h
    cases h
  have hbytes (l : List UInt8) : Out.bytes l ≠ .threw y := by
    intro h
    cases h
  cases exec_ran he with
  | construct _ hc => exact .construct hi (answer_threw hslot hout ▸ hc)
  | resize h => exact .resize hi (answer_threw hdone hout ▸ h)
  | clone h => exact .clone hi (answer_threw hslot hout ▸ h)
  | toCpu h => exact .toCpu hi (answer_threw hbytes hout ▸ h)
  | fromOutputBuffer h =>
    obtain ⟨rfl, -⟩ | h := World.fromOutputBuffer_cases h
    · exact .refl _
    · exact .getWriteHandle hi (answer_threw hslot hout ▸ h)
  | fromInputBuffer h =>
    obtain ⟨rfl, -⟩ | h := World.fromInputBuffer_cases h
    · exact .refl _
    · exact .getReadHandle hi (answer_threw hslot hout ▸ h)
  | promote helem _ h => exact .promote hi helem (answer_threw hslot hout ▸ h)
  | getReadHandle h => exact .getReadHandle hi (answer_threw hslot hout ▸ h)
  | getWriteHandle h => exact .getWriteHandle hi (answer_threw hslot hout ▸ h)
  | holdReaderReference h => exact .holdReaderReference (answer_threw hdone hout ▸ h)
  | _ => cases hout

end MemfdBuffer.Proc
