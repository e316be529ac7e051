import MemfdBuffer.Proc.Frame

/-!
# Which slots are alive

A call makes buffers only in the slots it answers with: the buffers that a call needs on its way are gone when it
returns or throws.
-/

namespace MemfdBuffer.Proc

open Slots

/-- No slot but `o` comes to life. -/
def NoNew (o : Option Nat) (w w' : World) : Prop := ∀ k, o ≠ some k → w.buf k = none → w'.buf k = none

section
variable {w w₁ w' : World} {i j k l n elem count : Nat} {s : Buf} {o o' : Option Nat} {env : AllocEnv}

namespace NoNew

theorem of_bufs (h : w'.bufs = w.bufs) : NoNew o w w' := by
  intro k _ hk
  unfold World.buf
  rw [h]
  exact hk

theorem refl (w : World) : NoNew o w w := of_bufs rfl

theorem trans (h : NoNew none w w₁) (h' : NoNew o w₁ w') : NoNew o w w' := by
  intro k hk hnone
  exact h' k hk (h k (Option.some_ne_none k).symm hnone)

theorem after (h : NoNew o w w₁) (h' : NoNew none w₁ w') : NoNew o w w' := by
  intro k hk hnone
  exact h' k (Option.some_ne_none k).symm (h k hk hnone)

theorem any (h : NoNew none w w') : NoNew o w w' := h.trans (.refl w')

theorem addBuf : NoNew (some w.bufs.length) w (w.addBuf s) := by
  intro k hk hnone
  rw [World.buf_addBuf, if_neg fun h => hk (congrArg some h.symm)]
  exact hnone

theorem setBuf {x : Option Buf} (hs : w.buf i = some s) : NoNew o w (w.setBuf i x) := by
  intro k _ hnone
  rw [World.buf_setBuf hs, if_neg]
  · exact hnone
  · rintro rfl
    rw [hs] at hnone
    cases hnone

theorem readied (h : Readied w i s w' n) (hs : w.buf i = some s) : NoNew o w w' := by
  intro k _ hnone
  rw [h.buf, if_neg]
  · exact hnone
  · rintro rfl
    rw [hs] at hnone
    cases hnone

end NoNew

namespace World

theorem getReadHandle_noNew (hi : Inv w []) {res : Except Exn Nat} (he : w.getReadHandle i = some (w', res)) :
    NoNew o w w' := by
  obtain ⟨s, n, w₁, hs, hready, -, ⟨x, -, rfl, -⟩ | ⟨-, -, w₂, hm, rfl⟩⟩ := getReadHandle_cases hi he
  · exact .readied hready hs
  · obtain ⟨pool, rfl⟩ := makeLease_frame hm
    exact (NoNew.readied hready hs).trans (.of_bufs rfl)

theorem getWriteHandle_noNew (hi : Inv w []) {res : Except Exn Nat} (he : w.getWriteHandle i = some (w', res)) :
    NoNew o w w' := by
  obtain ⟨s, hs, ⟨x, -, rfl, -⟩ | ⟨n, w₁, hready, -, ⟨x, -, rfl, -⟩ | ⟨-, -, -, -, rfl⟩⟩⟩ := getWriteHandle_cases hi he
  · exact .refl _
  · exact .readied hready hs
  · exact (NoNew.readied hready hs).trans (.of_bufs rfl)

theorem holdReaderReference_noNew {res : Except Exn Unit} (he : w.holdReaderReference i = some (w', res)) :
    NoNew o w w' := by
  obtain rfl | ⟨s, pool, hs, -, -, -, rfl⟩ := holdReaderReference_cases he
  · exact .refl _
  · exact .setBuf (w := w.withPool pool) hs

theorem bufs_leaveState (x : Option Nat) : (w.leaveState x).bufs = w.bufs := by
  unfold leaveState
  split
  · rfl
  · split <;> rfl

theorem bufs_releaseRead : (w.releaseRead j).bufs = w.bufs := by
  unfold releaseRead
  split
  · exact bufs_leaveState _
  · rfl

theorem bufs_transferRead : (w.transferRead i j).bufs = w.bufs := by
  unfold transferRead
  split <;> rfl

theorem bufs_releaseWrite : (w.releaseWrite l).bufs = w.bufs := by
  obtain ⟨states, writes, heq⟩ := w.releaseWrite_eq l
  rw [heq]

theorem bufs_transferWrite : (w.transferWrite i j).bufs = w.bufs := by
  unfold transferWrite
  split <;> rfl

theorem bufs_fill {bytes : List UInt8} (he : w.fill l bytes = some w') : w'.bufs = w.bufs := by
  obtain ⟨h, b, block, -, -, -, -, rfl⟩ := fill_ok he
  rfl

theorem bufs_writeThrough {bytes : List UInt8} {w₂ : World} (he : w₂.fill l bytes = some w') :
    (w'.destroyWrite l).bufs = w₂.bufs := bufs_releaseWrite.trans (bufs_fill he)

theorem copyInto_noNew (hi : Inv w []) {res : Except Exn Unit} (he : w.copyInto i j n = some (w', res)) :
    NoNew o w w' := by
  rcases copyInto_cases he with ⟨x, -, h₁⟩ | ⟨w₁, k, h₁, ⟨x, w₂, -, h₂, rfl⟩ | ⟨w₂, l, bytes, w₃, -, h₂, -, h₃, rfl⟩⟩
  · exact getReadHandle_noNew hi h₁
  all_goals have hi₁ := hi.getReadHandle h₁
  · exact ((getReadHandle_noNew hi h₁).trans (getWriteHandle_noNew hi₁ h₂)).after (.of_bufs bufs_releaseRead)
  · exact ((getReadHandle_noNew hi h₁).trans (getWriteHandle_noNew hi₁ h₂)).after
      (.of_bufs (bufs_releaseRead.trans (bufs_writeThrough h₃)))

/-! ### Buffers -/

theorem reset_noNew : NoNew o w (w.reset i) := by
  unfold reset
  split
  · rename_i s hs
    exact .setBuf (w := w.effects _) hs
  · exact .refl w

theorem destroyBuf_none : (w.destroyBuf j).buf j = none := by
  unfold destroyBuf
  cases hs : (w.reset j).buf j with
  | none =>
    unfold setBuf buf
    rw [set_none hs]
    exact hs
  | some s => exact (buf_setBuf hs).trans (if_pos rfl)

theorem destroyBuf_noNew : NoNew o w (w.destroyBuf j) := by
  refine NoNew.trans (reset_noNew (i := j)) ?_
  unfold destroyBuf
  cases hs : (w.reset j).buf j with
  | none =>
    unfold setBuf
    rw [set_none hs]
    exact .refl _
  | some s => exact .setBuf hs

/-- A buffer that does not outlive the call. -/
theorem dismiss (h : NoNew (some j) w w₁) : NoNew o w (w₁.destroyBuf j) := by
  intro k _ hnone
  by_cases hk : k = j
  · rw [hk]
    exact destroyBuf_none
  · exact destroyBuf_noNew (o := none) k (Option.some_ne_none k).symm
      (h k (fun hj => hk (Option.some.inj hj).symm) hnone)

theorem transfer_noNew : NoNew o w (w.transfer i j) := by
  unfold transfer
  split
  · rename_i s t hs ht
    refine NoNew.trans (.setBuf (x := some (s.withShared t.shared.moveFrom.1)) hs) ?_
    by_cases hij : j = i
    · exact .setBuf (s := s.withShared t.shared.moveFrom.1) ((buf_setBuf hs).trans (if_pos hij))
    · exact .setBuf (s := t) (((buf_setBuf hs).trans (if_neg hij)).trans ht)
  · exact .refl w

theorem assign_noNew : NoNew o w (w.assign i j) := by
  unfold assign
  split
  · exact .refl w
  · exact NoNew.trans (reset_noNew (i := i)) transfer_noNew

theorem setSize_noNew {size : Nat} : NoNew o w (w.setSize i size) := by
  unfold setSize
  split
  · exact .setBuf ‹_›
  · exact .refl w

theorem clear_noNew : NoNew o w (w.clear i) := NoNew.trans (reset_noNew (i := i)) setSize_noNew

theorem swapIn_noNew (h : NoNew (some j) w w₁) : NoNew o w (w₁.swapIn i j count) :=
  dismiss ((h.after assign_noNew).after setSize_noNew)

theorem allocateRaw_noNew (hi : Inv w []) {res : Except Exn Nat} (he : w.allocateRaw elem count env = (w', res)) :
    NoNew res.toOption w w' := by
  rcases allocateRaw_cases hi he with ⟨x, -, rfl | ⟨pool, -, rfl⟩⟩ | ⟨pool, b, block, rfl, -, -, -, rfl⟩
  · exact .refl _
  · exact .of_bufs rfl
  · exact .addBuf (w := w.withPool pool)

theorem construct_noNew (hi : Inv w []) {res : Except Exn Nat} (he : w.construct elem count env = (w', res)) :
    NoNew res.toOption w w' := by
  unfold construct at he
  split at he
  · cases he
    exact .addBuf
  · exact allocateRaw_noNew hi he

theorem resize_noNew (hi : Inv w []) {res : Except Exn Unit} (he : w.resize i count env = some (w', res)) :
    NoNew o w w' := by
  obtain ⟨s, hs, ⟨-, rfl, -⟩ | ⟨-, -, rfl, -⟩ | ⟨-, -, ⟨x, -, ha⟩ | ⟨w₁, j, ha, ⟨-, rfl, -⟩ |
    ⟨-, ⟨x, w₂, -, hc, rfl⟩ | ⟨w₂, hc, rfl, -⟩⟩⟩⟩⟩ := resize_cases he
  · exact .refl _
  · exact clear_noNew
  · exact (allocateRaw_noNew hi ha).trans (.refl _)
  all_goals have hi₁ := hi.allocateRaw (hi.elem hs) ha
  · exact swapIn_noNew (allocateRaw_noNew hi ha)
  · exact dismiss ((allocateRaw_noNew hi ha).after (copyInto_noNew hi₁ hc))
  · exact swapIn_noNew ((allocateRaw_noNew hi ha).after (copyInto_noNew hi₁ hc))

theorem toCpu_noNew (hi : Inv w []) {res : Except Exn (List UInt8)} (he : w.toCpu i = some (w', res)) :
    NoNew o w w' := by
  obtain ⟨s, -, ⟨-, rfl, -⟩ | ⟨-, ⟨x, -, h₁⟩ | ⟨w₁, r, bytes, -, h₁, -, rfl⟩⟩⟩ := toCpu_cases he
  · exact .refl _
  · exact getReadHandle_noNew hi h₁
  · exact (getReadHandle_noNew hi h₁).trans (.of_bufs bufs_releaseRead)

theorem clone_noNew (hi : Inv w []) {res : Except Exn Nat} (he : w.clone i env = some (w', res)) :
    NoNew res.toOption w w' := by
  obtain ⟨s, hs, ⟨x, rfl, ha⟩ | ⟨w₁, j, ha, ⟨-, rfl, rfl⟩ | ⟨-, ⟨x, w₂, rfl, hc, rfl⟩ | ⟨rfl, hc⟩⟩⟩⟩ := clone_cases he
  · exact construct_noNew hi ha
  all_goals have hi₁ := hi.construct (hi.elem hs) ha
  · exact construct_noNew hi ha
  · exact dismiss ((construct_noNew hi ha).after (copyInto_noNew hi₁ hc))
  · exact (construct_noNew hi ha).after (copyInto_noNew hi₁ hc)

theorem setPromotedBuffer_gone (h : NoNew (some j) w w₁) (hr : (w₁.read k).isSome) :
    NoNew o w (w₁.setPromotedBuffer k j) := by
  obtain ⟨r, hr⟩ := Option.isSome_iff_exists.1 hr
  intro m _ hnone
  have hm : some j ≠ some m → w₁.buf m = none := fun hj => h m hj hnone
  unfold setPromotedBuffer
  rw [hr]
  cases hs : w₁.buf j with
  | none =>
    by_cases hmj : m = j
    · rw [hmj]
      exact hs
    · exact hm fun hj => hmj (Option.some.inj hj).symm
  | some s =>
    refine (buf_setBuf (w := w₁.setRead k _) hs).trans ?_
    split
    · rfl
    · rename_i hmj
      exact hm fun hj => hmj (Option.some.inj hj).symm

theorem promote_noNew (hi : Inv w []) {source : List UInt8} {res : Except Exn Nat}
    (he : w.promote elem count source env = some (w', res)) : NoNew o w w' := by
  rcases promote_cases he with ⟨-, rfl, -⟩ | ⟨-, ⟨x, -, ha⟩ | ⟨w₁, j, ha, ⟨x, w₂, -, h₂, rfl⟩ |
    ⟨w₂, l, w₃, h₂, h₃, ⟨x, w₄, -, h₄, rfl⟩ | ⟨w₄, r, h₄, rfl, -⟩⟩⟩⟩
  · exact .refl _
  · exact (construct_noNew hi ha).trans (.refl _)
  all_goals
    have hi₁ := hi.construct Nat.one_pos ha
    have h₀₂ := (construct_noNew hi ha).after (getWriteHandle_noNew hi₁ h₂)
  · exact dismiss h₀₂
  all_goals
    have hi₃ := ((hi₁.getWriteHandle h₂).fill h₃).destroyWrite l
    have h₀₄ := (h₀₂.after (.of_bufs (bufs_writeThrough h₃))).after (getReadHandle_noNew hi₃ h₄)
  · exact dismiss h₀₄
  · obtain ⟨s, h, hr, -⟩ := getReadHandle_slot hi₃ h₄
    exact setPromotedBuffer_gone h₀₄ (by rw [hr]; rfl)

end World

/-- The slot that a call fills. -/
def Op.makes : Op → Out → Option Nat
  | .construct _ _ _, .slot i | .adopt _ _ _, .slot i | .clone _ _, .slot i => some i
  | _, _ => none

/-- No other slot comes to life. -/
theorem exec_noNew (hi : Inv w []) {op : Op} {out : Out} (he : exec w op = some (w', out)) :
    NoNew (op.makes out) w w' := by
  cases exec_ran he with
  | @construct _ _ _ _ res _ hc => cases res <;> exact World.construct_noNew hi hc
  | adopt => exact NoNew.addBuf.after World.transfer_noNew
  | destroyBuf => exact World.destroyBuf_noNew
  | assign => exact World.assign_noNew
  | resize h => exact World.resize_noNew hi h
  | clear => exact World.clear_noNew
  | @clone _ _ _ res h => cases res <;> exact World.clone_noNew hi h
  | toCpu h => exact World.toCpu_noNew hi h
  | fromOutputBuffer h =>
    obtain ⟨rfl, -⟩ | h := World.fromOutputBuffer_cases h
    · exact .refl _
    · exact World.getWriteHandle_noNew hi h
  | fromInputBuffer h =>
    obtain ⟨rfl, -⟩ | h := World.fromInputBuffer_cases h
    · exact .refl _
    · exact World.getReadHandle_noNew hi h
  | promote _ _ h => exact World.promote_noNew hi h
  | getReadHandle h => exact World.getReadHandle_noNew hi h
  | getWriteHandle h => exact World.getWriteHandle_noNew hi h
  | @finalizeWriteHandle _ s => exact .of_bufs (World.bufs_finalizeWriteHandle s.shared)
  | holdReaderReference h => exact World.holdReaderReference_noNew h
  | moveRead => exact .of_bufs World.bufs_transferRead
  | assignRead =>
    split
    · exact .refl w
    · exact .of_bufs (World.bufs_transferRead.trans World.bufs_releaseRead)
  | destroyRead => exact .of_bufs World.bufs_releaseRead
  | moveWrite => exact .of_bufs World.bufs_transferWrite
  | assignWrite =>
    split
    · exact .refl w
    · exact .of_bufs (World.bufs_transferWrite.trans World.bufs_releaseWrite)
  | destroyWrite => exact .of_bufs World.bufs_releaseWrite
  | writeByte hw =>
    obtain ⟨h', b, block, -, -, -, -, rfl⟩ := World.writeByte_ok hw
    exact .of_bufs rfl
  | onDiscoveringEndpoint => exact .of_bufs rfl
  | createDescriptor h =>
    rcases World.createDescriptor_cases hi h with ⟨heq, -⟩ | ⟨s, pool, -, -, heq, -⟩
    · rw [heq]
      exact .refl w
    · rw [heq]
      exact .of_bufs (World.bufs_finalizeWriteHandle s.shared)
  | outside => exact .of_bufs rfl

end

end MemfdBuffer.Proc
