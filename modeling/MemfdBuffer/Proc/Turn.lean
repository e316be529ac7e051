import MemfdBuffer.Proc.Live
import MemfdBuffer.Proc.Contents
import MemfdBuffer.Proc.Lifecycle

/-!
# Slots that a call leaves alone

For the calls that a client of single buffers makes: which slots of buffers and handles each of them fills or empties.
Everything else is after the call what it was before it, dead slots included.
-/

namespace MemfdBuffer.Proc

open Slots

/-- The slots that a call may fill or empty. -/
structure Touching where
  buf : Nat → Prop := fun _ => False
  read : Nat → Prop := fun _ => False
  write : Nat → Prop := fun _ => False

structure Turn (T : Touching) (w w' : World) : Prop where
  buf {k : Nat} {s : Buf} : w.buf k = some s → ¬ T.buf k → ∃ s', w'.buf k = some s' ∧ Kept w.states.length s s'
  gone {k : Nat} : w.buf k = none → ¬ T.buf k → w'.buf k = none
  read (j : Nat) : ¬ T.read j → w'.read j = w.read j
  write (l : Nat) : ¬ T.write l → w'.write l = w.write l
  block {b : Nat} {x : SharedBufferBlock} : w.pool.allBlocks[b]? = some x →
    ∃ y, w'.pool.allBlocks[b]? = some y ∧ y.payloadSize = x.payloadSize

section
variable {T T' : Touching} {E : Scope} {w w₁ w' : World} {i j k l n : Nat} {s t : Buf} {out : Out} {env : AllocEnv}

namespace Turn

theorem of_frame (hf : Frame E w w') (hb : ∀ k s, w.buf k = some s → E.buf k → T.buf k)
    (hg : ∀ k, ¬ T.buf k → w.buf k = none → w'.buf k = none) (hr : ∀ j, ¬ T.read j → w'.read j = w.read j)
    (hw : ∀ l, ¬ T.write l → w'.write l = w.write l) : Turn T w w' := by
  refine ⟨fun hs hT => hf.buf hs fun hE => hT (hb _ _ hs hE), fun hnone hT => hg _ hT hnone, hr, hw, fun hx => ?_⟩
  obtain ⟨y, hy, hsize, -⟩ := hf.block hx
  exact ⟨y, hy, hsize⟩

theorem refl (w : World) : Turn {} w w :=
  ⟨fun hs _ => ⟨_, hs, .refl _⟩, fun h _ => h, fun _ _ => rfl, fun _ _ => rfl, fun hx => ⟨_, hx, rfl⟩⟩

theorem trans (h : Turn T w w') (hlen : w.states.length ≤ w'.states.length) (h' : Turn T w' w₁) : Turn T w w₁ := by
  refine ⟨fun hs hT => ?_, fun hnone hT => h'.gone (h.gone hnone hT) hT, fun j hj => (h'.read j hj).trans (h.read j hj),
    fun l hl => (h'.write l hl).trans (h.write l hl), fun hx => ?_⟩
  · obtain ⟨s₁, hs₁, hk⟩ := h.buf hs hT
    obtain ⟨s', hs', hk'⟩ := h'.buf hs₁ hT
    exact ⟨s', hs', hk.trans hlen hk'⟩
  · obtain ⟨y, hy, hsize⟩ := h.block hx
    obtain ⟨z, hz, hsize'⟩ := h'.block hy
    exact ⟨z, hz, hsize'.trans hsize⟩

/-- What was filled is empty again. -/
theorem undone (h : Turn T w w') (hb : ∀ k, T.buf k → w.buf k = none ∧ w'.buf k = none)
    (hr : ∀ j, T.read j → w'.read j = w.read j) (hw : ∀ l, ¬ T.write l) : Turn {} w w' := by
  refine ⟨fun {k s} hs _ => h.buf hs fun hT => ?_, fun {k} hk _ => ?_, fun j _ => ?_, fun l _ => h.write l (hw l),
    h.block⟩
  · rw [(hb k hT).1] at hs
    cases hs
  · by_cases hT : T.buf k
    · exact (hb k hT).2
    · exact h.gone hk hT
  · by_cases hT : T.read j
    · exact hr j hT
    · exact h.read j hT

end Turn

/-! ### What the calls do to handles -/

namespace World

theorem construct_handles {elem count : Nat} {res : Except Exn Nat} (hi : Inv w [])
    (he : w.construct elem count env = (w', res)) : w'.reads = w.reads ∧ w'.writes = w.writes := by
  unfold construct at he
  split at he
  · cases he
    exact ⟨rfl, rfl⟩
  · rcases allocateRaw_cases hi he with ⟨x, -, rfl | ⟨pool, -, rfl⟩⟩ | ⟨pool, b, block, -, -, -, -, rfl⟩
      <;> exact ⟨rfl, rfl⟩

theorem destroyBuf_handles (i : Nat) : (w.destroyBuf i).reads = w.reads ∧ (w.destroyBuf i).writes = w.writes := by
  unfold destroyBuf reset
  split <;> exact ⟨rfl, rfl⟩

theorem fill_handles {bytes : List UInt8} (he : w.fill l bytes = some w') :
    w'.reads = w.reads ∧ w'.writes = w.writes := by
  obtain ⟨h, b, block, -, -, -, -, rfl⟩ := fill_ok he
  exact ⟨rfl, rfl⟩

theorem reads_destroyRead {r : ReadHandle} (hr : w.read j = some r) : (w.destroyRead j).reads = w.reads.set j none ∧
    (w.destroyRead j).writes = w.writes := by
  obtain ⟨hwrites, hreads, -⟩ := releaseRead_leaves hr
  refine ⟨?_, hwrites⟩
  show (w.releaseRead j).reads.set j none = _
  rw [hreads, List.set_set]

theorem writes_destroyWrite {h : WriteHandle} (hl : w.write l = some h) : (w.destroyWrite l).reads = w.reads ∧
    (w.destroyWrite l).writes = w.writes.set l none := by
  obtain ⟨hreads, hwrites, -⟩ := releaseWrite_finalizes hl
  refine ⟨hreads, ?_⟩
  show (w.releaseWrite l).writes.set l none = _
  rw [hwrites, List.set_set]

/-- The handle on a promoted buffer stands in a new slot, and has the buffer. -/
theorem promote_handles (hi : Inv w []) {elem count : Nat} {source : List UInt8} {res : Except Exn Nat}
    (he : w.promote elem count source env = some (w', res)) : (∀ l, w'.write l = w.write l) ∧
      ((∃ x, res = .error x) ∧ w'.reads = w.reads ∨
        ∃ r impl, res = .ok w.reads.length ∧ w'.reads = w.reads ++ [some r] ∧ r.promotedBuffer = some impl ∧
          impl.sharedBuffer.dataPtr = r.dataPtr) := by
  have hcreated : ∀ {w₁ w₂ w₃ : World} {j l : Nat} {bytes : List UInt8}, w₁.writes = w.writes →
      w₁.getWriteHandle j = some (w₂, .ok l) → w₂.fill l bytes = some w₃ →
      (∀ k, (w₃.destroyWrite l).write k = w.write k) ∧ (w₃.destroyWrite l).reads = w₁.reads := by
    intro w₁ w₂ w₃ j l bytes hw₁ h₂ h₃
    obtain ⟨hr₂, -, -, ⟨⟨x, hx⟩, -⟩ | ⟨n, st, h, hl, -, -, -, -, hw₂, -⟩⟩ := getWriteHandle_grown h₂
    · cases hx
    · cases hl
      obtain ⟨hr₃, hw₃⟩ := fill_handles h₃
      have hself : w₃.write w₁.writes.length = some h := by
        rw [write, hw₃, hw₂, get_append, if_pos rfl]
      obtain ⟨hreads, hwrites⟩ := writes_destroyWrite hself
      refine ⟨fun k => ?_, hreads.trans (hr₃.trans hr₂)⟩
      rw [write, hwrites, get_set hself, hw₃, hw₂, get_append, hw₁]
      split
      · rename_i hk
        rw [hk, write, get_length]
      · rfl
  rcases promote_cases he with ⟨-, rfl, hx⟩ | ⟨-, ⟨x, rfl, ha⟩ | ⟨w₁, j, ha, ⟨x, w₂, rfl, h₂, rfl⟩ |
    ⟨w₂, l, w₃, h₂, h₃, ⟨x, w₄, rfl, h₄, rfl⟩ | ⟨w₄, r, h₄, rfl, rfl⟩⟩⟩⟩
  · exact ⟨fun _ => rfl, .inl ⟨hx, rfl⟩⟩
  · obtain ⟨hr, hw⟩ := construct_handles hi ha
    exact ⟨fun l => congrArg (get · l) hw, .inl ⟨⟨x, rfl⟩, hr⟩⟩
  all_goals
    obtain ⟨hr₁, hw₁⟩ := construct_handles hi ha
    have hi₁ := hi.construct Nat.one_pos ha
  · obtain ⟨hr₂, -, -, ⟨-, -, hw₂⟩ | ⟨n, st, h, hl, -⟩⟩ := getWriteHandle_grown h₂
    · obtain ⟨hr, hw⟩ := destroyBuf_handles (w := w₂) j
      exact ⟨fun l => congrArg (get · l) (hw.trans (hw₂.trans hw₁)), .inl ⟨⟨x, rfl⟩, hr.trans (hr₂.trans hr₁)⟩⟩
    · cases hl
  all_goals
    obtain ⟨hw₃, hr₃⟩ := hcreated hw₁ h₂ h₃
    have hi₃ := ((hi₁.getWriteHandle h₂).fill h₃).destroyWrite l
  · obtain ⟨hw₄, -, -, ⟨-, -, hr₄⟩ | ⟨n, st, h, hl, -⟩⟩ := getReadHandle_grown h₄
    · obtain ⟨hr, hw⟩ := destroyBuf_handles (w := w₄) j
      exact ⟨fun l => (congrArg (get · l) (hw.trans hw₄)).trans (hw₃ l),
        .inl ⟨⟨x, rfl⟩, hr.trans (hr₄.trans (hr₃.trans hr₁))⟩⟩
    · cases hl
  · obtain ⟨t₁, -, ht₁, -⟩ := construct_has hi Nat.one_pos ha
    obtain ⟨t₃, ht₃, hk⟩ := (writeThrough_frame hi₁ ht₁ h₂ h₃).buf ht₁ id
    obtain ⟨t₄, ht₄, hk'⟩ := (getReadHandle_frame h₄).buf ht₃ id
    obtain ⟨h, hh, hptr⟩ := getReadHandle_on hi₃ ht₃ h₄
    obtain ⟨hw₄, -, -, ⟨⟨x, hx⟩, -⟩ | ⟨n, st, h', hl, -, -, -, hr₄, -⟩⟩ := getReadHandle_grown h₄
    · cases hx
    · cases hl
      have hreads : w₄.reads = w.reads ++ [some h'] := by rw [hr₄, hr₃, hr₁]
      have hlen : (w₃.destroyWrite l).reads.length = w.reads.length := by rw [hr₃, hr₁]
      rw [hlen] at hh ⊢
      have hh' : h' = h := by
        rw [read, hreads, get_append, if_pos rfl] at hh
        exact Option.some.inj hh
      subst hh'
      have heq : w₄.setPromotedBuffer w.reads.length j =
          (w₄.setRead w.reads.length (some { h' with promotedBuffer := some t₄.impl })).setBuf j none := by
        unfold setPromotedBuffer
        rw [hh, ht₄]
      rw [heq]
      refine ⟨fun l => (congrArg (get · l) hw₄).trans (hw₃ l),
        .inr ⟨{ h' with promotedBuffer := some t₄.impl }, t₄.impl, rfl, ?_, rfl, ?_⟩⟩
      · show w₄.reads.set w.reads.length _ = _
        rw [hreads, List.set_append_right _ _ (Nat.le_refl _), Nat.sub_self]
        rfl
      · exact hk'.dataPtr.trans hptr.symm

end World

/-! ### The calls -/

/-- A new buffer, or a throw. -/
theorem turn_construct (hi : Inv w []) {count : Nat} (hpos : 0 < count)
    (he : exec w (.construct 1 count env) = some (w', out)) :
    (∃ x, out = .threw x ∧ Turn {} w w') ∨
      out = .slot w.bufs.length ∧ Turn { buf := fun k => k = w.bufs.length } w w' ∧
        ∃ t c, w'.buf w.bufs.length = some t ∧ t.elem = 1 ∧ t.impl.size = count ∧ t.shared.size = count ∧
          t.shared.handleState = none ∧ t.shared.dataPtr = some c := by
  cases exec_ran he with
  | @construct _ _ _ _ res _ hc =>
    obtain ⟨hr, hw⟩ := World.construct_handles hi hc
    have hnew := World.construct_noNew hi hc
    have hread : ∀ j, w'.read j = w.read j := fun j => congrArg (get · j) hr
    have hwrite : ∀ l, w'.write l = w.write l := fun l => congrArg (get · l) hw
    cases res with
    | error x =>
      refine .inl ⟨x, rfl, .of_frame (World.construct_frame hc) (fun _ _ _ h => h) (fun k _ hk => ?_)
        (fun j _ => hread j) fun l _ => hwrite l⟩
      exact hnew k (Option.some_ne_none k).symm hk
    | ok j =>
      unfold World.construct at hc
      rw [if_neg (by omega)] at hc
      obtain ⟨-, rfl, t, c, -, ht, h1, h2, hstate, hptr, hsize, -⟩ := World.allocateRaw_new hi Nat.one_pos hc
      refine .inr ⟨rfl, .of_frame (World.allocateRaw_frame hc) (fun _ _ _ h => h.elim) (fun k hT hk => ?_)
        (fun j _ => hread j) (fun l _ => hwrite l), t, c, ht, h1, h2, by rw [hsize, Nat.mul_one], hstate, hptr⟩
      exact hnew k (fun h => hT (Option.some.inj h).symm) hk

theorem turn_destroyBuf (he : exec w (.destroyBuf i) = some (w', out)) :
    Turn { buf := fun k => k = i } w w' ∧ w'.buf i = none := by
  cases exec_ran he with
  | destroyBuf =>
    obtain ⟨hr, hw⟩ := World.destroyBuf_handles (w := w) i
    refine ⟨.of_frame (World.destroyBuf_frame i) (fun _ _ _ h => h) (fun k _ hk => ?_)
      (fun j _ => congrArg (get · j) hr) fun l _ => congrArg (get · l) hw, World.destroyBuf_none⟩
    exact World.destroyBuf_noNew k (Option.some_ne_none k).symm hk

/-- A read handle in a new slot, or a throw. -/
theorem turn_fromInputBuffer (hi : Inv w []) (hs : w.buf i = some s)
    (he : exec w (.fromInputBuffer i) = some (w', out)) :
    (∃ x, out = .threw x ∧ Turn {} w w') ∨
      out = .slot w.reads.length ∧ Turn { read := fun j => j = w.reads.length } w w' ∧
        ∃ r, w'.read w.reads.length = some r ∧ r.dataPtr = s.shared.dataPtr := by
  cases exec_ran he with
  | @fromInputBuffer _ _ res hf =>
    obtain ⟨rfl, x, rfl⟩ | hg := World.fromInputBuffer_cases hf
    · exact .inl ⟨x, rfl, .refl _⟩
    have hgone : ∀ k, w.buf k = none → w'.buf k = none := fun k hk =>
      World.getReadHandle_noNew hi hg (o := none) k (Option.some_ne_none k).symm hk
    obtain ⟨hw, -, -, ⟨⟨x, rfl⟩, -, hr⟩ | ⟨n, st, h, rfl, -, -, -, hr, -⟩⟩ := World.getReadHandle_grown hg
    · exact .inl ⟨x, rfl, .of_frame (World.getReadHandle_frame hg) (fun _ _ _ h => h) (fun k _ hk => hgone k hk)
        (fun j _ => congrArg (get · j) hr) fun l _ => congrArg (get · l) hw⟩
    · refine .inr ⟨rfl, .of_frame (World.getReadHandle_frame hg) (fun _ _ _ h => h) (fun k _ hk => hgone k hk)
        (fun j hj => ?_) (fun l _ => congrArg (get · l) hw), World.getReadHandle_on hi hs hg⟩
      rw [World.read, hr, get_append, if_neg hj]
      rfl

theorem turn_promote (hi : Inv w []) {bytes : List UInt8}
    (he : exec w (.promote 1 bytes.length bytes env) = some (w', out)) :
    (∃ x, out = .threw x ∧ Turn {} w w') ∨
      out = .slot w.reads.length ∧ Turn { read := fun j => j = w.reads.length } w w' ∧
        ∃ r b impl, w'.read w.reads.length = some r ∧ r.dataPtr = some b ∧ w'.payload b = some bytes ∧
          r.promotedBuffer = some impl ∧ impl.sharedBuffer.dataPtr = r.dataPtr := by
  cases exec_ran he with
  | @promote _ _ _ _ _ res _ hlen hp =>
    have hgone : ∀ k, w.buf k = none → w'.buf k = none := fun k hk =>
      World.promote_noNew hi hp (o := none) k (Option.some_ne_none k).symm hk
    obtain ⟨hw, ⟨⟨x, rfl⟩, hr⟩ | ⟨r, impl, rfl, hr, himpl, hptr⟩⟩ := World.promote_handles hi hp
    · exact .inl ⟨x, rfl, .of_frame (World.promote_frame hi hp) (fun _ _ _ h => h) (fun k _ hk => hgone k hk)
        (fun j _ => congrArg (get · j) hr) fun l _ => hw l⟩
    · obtain ⟨r', b, hr', hb, hpay⟩ := World.promote_shows hi Nat.one_pos hlen hp
      have hself : w'.read w.reads.length = some r := by rw [World.read, hr, get_append, if_pos rfl]
      cases hself.symm.trans hr'
      refine .inr ⟨rfl, .of_frame (World.promote_frame hi hp) (fun _ _ _ h => h) (fun k _ hk => hgone k hk)
        (fun j hj => ?_) (fun l _ => hw l), r, b, impl, hself, hb, hpay, himpl, hptr⟩
      rw [World.read, hr, get_append, if_neg hj]
      rfl

theorem turn_destroyRead (he : exec w (.destroyRead j) = some (w', out)) :
    Turn { read := fun k => k = j } w w' ∧ w'.read j = none := by
  cases exec_ran he with
  | destroyRead hr =>
    obtain ⟨hreads, hwrites⟩ := World.reads_destroyRead hr
    have hread : ∀ k, (w.destroyRead j).read k = if k = j then none else w.read k := fun k => by
      rw [World.read, hreads]
      exact get_set hr
    refine ⟨.of_frame (World.destroyRead_frame j) (fun _ _ _ h => h.elim) (fun k _ hk => ?_)
      (fun k hk => (hread k).trans (if_neg hk)) fun l _ => congrArg (get · l) hwrites, (hread j).trans (if_pos rfl)⟩
    exact NoNew.of_bufs (o := none) World.bufs_releaseRead k (Option.some_ne_none k).symm hk

/-- A write handle in a new slot, or a throw. -/
theorem turn_fromOutputBuffer (hi : Inv w []) (hs : w.buf i = some s)
    (he : exec w (.fromOutputBuffer i) = some (w', out)) :
    (∃ x, out = .threw x ∧ Turn {} w w') ∨
      out = .slot w.writes.length ∧ Turn { write := fun l => l = w.writes.length } w w' ∧
        ∃ h n t, w'.write w.writes.length = some h ∧ h.dataPtr = s.shared.dataPtr ∧ h.state = some n ∧ w'.InUse n ∧
          w'.buf i = some t ∧ t.shared.handleState = some n := by
  cases exec_ran he with
  | @fromOutputBuffer _ _ res hf =>
    obtain ⟨rfl, x, rfl⟩ | hg := World.fromOutputBuffer_cases hf
    · exact .inl ⟨x, rfl, .refl _⟩
    have hgone : ∀ k, w.buf k = none → w'.buf k = none := fun k hk =>
      World.getWriteHandle_noNew hi hg (o := none) k (Option.some_ne_none k).symm hk
    obtain ⟨hr, states, -, ⟨⟨x, rfl⟩, -, hw⟩ | ⟨n, st, h, rfl, hst, -, -, hstates, hw, hn⟩⟩ :=
      World.getWriteHandle_grown hg
    · exact .inl ⟨x, rfl, .of_frame (World.getWriteHandle_frame hg) (fun _ _ _ h => h) (fun k _ hk => hgone k hk)
        (fun j _ => congrArg (get · j) hr) fun l _ => congrArg (get · l) hw⟩
    · obtain ⟨s', n', h', hs', ht, hl, hptr, hn'⟩ := World.getWriteHandle_slot hi hg
      cases hs.symm.trans hs'
      have hself : w'.write w.writes.length = some h := by rw [World.write, hw, get_append, if_pos rfl]
      cases hself.symm.trans hl
      cases hn.symm.trans hn'
      refine .inr ⟨rfl, .of_frame (World.getWriteHandle_frame hg) (fun _ _ _ h => h) (fun k _ hk => hgone k hk)
        (fun j _ => congrArg (get · j) hr) (fun l hl => ?_), h, n, _, hself, hptr, hn,
        ⟨{ st with state := .inUse }, ?_, rfl⟩, ht, rfl⟩
      · rw [World.write, hw, get_append, if_neg hl]
        rfl
      · rw [hstates]
        exact Tally.get_set_self hst

theorem turn_destroyWrite (he : exec w (.destroyWrite l) = some (w', out)) :
    Turn { write := fun k => k = l } w w' ∧ w'.write l = none := by
  cases exec_ran he with
  | destroyWrite hl =>
    obtain ⟨hreads, hwrites⟩ := World.writes_destroyWrite hl
    have hwrite : ∀ k, (w.destroyWrite l).write k = if k = l then none else w.write k := fun k => by
      rw [World.write, hwrites]
      exact get_set hl
    refine ⟨.of_frame (World.destroyWrite_frame l) (fun _ _ _ h => h.elim) (fun k _ hk => ?_)
      (fun j _ => congrArg (get · j) hreads) fun k hk => (hwrite k).trans (if_neg hk), (hwrite l).trans (if_pos rfl)⟩
    exact NoNew.of_bufs (o := none) World.bufs_releaseWrite k (Option.some_ne_none k).symm hk

/-- Calls on no handle. -/
def Op.bare : Op → Bool
  | .writeByte _ _ _ | .onDiscoveringEndpoint _ _ | .createDescriptor _ _ _ | .outside _ => true
  | _ => false

theorem turn_bare (hi : Inv w []) {op : Op} (hop : op.bare = true) (he : exec w op = some (w', out)) :
    Turn {} w w' := by
  have hf := exec_frame hi he
  have hgone := exec_noNew hi he
  cases exec_ran he with
  | writeByte hw =>
    obtain ⟨h', b, block, -, -, -, -, rfl⟩ := World.writeByte_ok hw
    exact .of_frame hf (fun _ _ _ h => h) (fun k _ hk => hk) (fun _ _ => rfl) fun _ _ => rfl
  | onDiscoveringEndpoint => exact .of_frame hf (fun _ _ _ h => h) (fun k _ hk => hk) (fun _ _ => rfl) fun _ _ => rfl
  | createDescriptor h =>
    have hg : ∀ k, w.buf k = none → w'.buf k = none := fun k hk => hgone k (Option.some_ne_none k).symm hk
    rcases World.createDescriptor_cases hi h with ⟨rfl, -⟩ | ⟨s, pool, -, -, rfl, -⟩
    · exact .refl _
    · obtain ⟨states, heq⟩ := w.finalizeWriteHandle_eq s.shared
      refine .of_frame hf (fun _ _ _ h => h) (fun k _ hk => hg k hk) (fun j _ => ?_) fun l _ => ?_
      · rw [heq]
        rfl
      · rw [heq]
        rfl
  | outside => exact .of_frame hf (fun _ _ _ h => h) (fun k _ hk => hk) (fun _ _ => rfl) fun _ _ => rfl
  | _ => cases hop

end

end MemfdBuffer.Proc
