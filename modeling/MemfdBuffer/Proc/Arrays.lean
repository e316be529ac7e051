import MemfdBuffer.Lib.Partial
import MemfdBuffer.Lib.Simulation
import MemfdBuffer.Proc.Progress
import MemfdBuffer.Proc.Throws

/-!
# Buffers as byte arrays

In the reference every buffer is an array of its own, whose bytes are unknown until they are written, and a read
handle shows bytes that are fixed when it is made. Every run of a process on plain buffers is a run of the reference
with the same answers.
-/

namespace MemfdBuffer.Proc

open Slots Partial

/-! ### The reference -/

/-- The arrays of the buffers, each with its `sizeof(T)`, and what the read handles show. -/
structure Arrays where
  bufs : Nat → Option (Nat × List (Option UInt8)) := fun _ => none
  reads : Nat → Option (List UInt8) := fun _ => none

namespace Arrays

def put (a : Arrays) (i : Nat) (x : Option (Nat × List (Option UInt8))) : Arrays :=
  { a with bufs := Function.update a.bufs i x }

def hold (a : Arrays) (j : Nat) (l : Option (List UInt8)) : Arrays := { a with reads := Function.update a.reads j l }

end Arrays

/-- What is done to buffers: a call, or a store through the write handle in slot `l` to the buffer in slot `i`. -/
inductive Access
  | call (op : Op)
  | store (i l offset : Nat) (byte : UInt8)

/-- Every call but those that move the storage of a buffer elsewhere, and bare stores. -/
def Op.plain : Op → Bool
  | .adopt _ _ _ | .assign _ _ | .writeByte _ _ _ => false
  | _ => true

/-- What a call may answer on arrays, and the arrays after it. -/
def Arrays.Next (a : Arrays) : Access × Out → Arrays → Prop
  | (_, .threw _), a' => a' = a
  | (.store i _ offset byte, _), a' =>
    ∃ elem l, a.bufs i = some (elem, l) ∧ offset < l.length ∧ a' = a.put i (some (elem, l.set offset (some byte)))
  | (.call (.construct elem count _), .slot j), a' =>
    a.bufs j = none ∧ a' = a.put j (some (elem, List.replicate (count * elem) none))
  | (.call (.destroyBuf i), _), a' => a' = a.put i none
  | (.call (.resize i count _), _), a' =>
    ∃ elem l, a.bufs i = some (elem, l) ∧ a' = a.put i (some (elem, resized l (count * elem)))
  | (.call (.clear i), _), a' => ∃ elem l, a.bufs i = some (elem, l) ∧ a' = a.put i (some (elem, []))
  | (.call (.clone i _), .slot j), a' => ∃ x, a.bufs i = some x ∧ a.bufs j = none ∧ a' = a.put j (some x)
  | (.call (.toCpu i), .bytes bytes), a' => ∃ elem l, a.bufs i = some (elem, l) ∧ Agrees l bytes ∧ a' = a
  | (.call (.fromInputBuffer i), .slot j), a' | (.call (.getReadHandle i), .slot j), a' =>
    ∃ elem l bytes, a.bufs i = some (elem, l) ∧ Agrees l bytes ∧ a.reads j = none ∧ a' = a.hold j (some bytes)
  | (.call (.promote _ _ source _), .slot j), a' => a.reads j = none ∧ a' = a.hold j (some source)
  | (.call (.moveRead j), .slot k), a' => a.reads k = none ∧ a' = (a.hold k (a.reads j)).hold j none
  | (.call (.assignRead i j), _), a' => a' = if i = j then a else (a.hold i (a.reads j)).hold j none
  | (.call (.destroyRead j), _), a' => a' = a.hold j none
  | _, a' => a' = a

/-- The write handle in slot `l` is not finalized, and the buffer in slot `i` that it was made for still has the
storage it had then. -/
def World.Through (w : World) (i l : Nat) : Prop := ∃ s h n, w.buf i = some s ∧ w.write l = some h ∧ h.state = some n ∧
  w.InUse n ∧ s.shared.handleState = some n ∧ s.shared.dataPtr = h.dataPtr

/-- The accesses of the process. -/
def access (w : World) : Access × Out → World → Prop
  | (.call op, out), w' => op.plain ∧ exec w op = some (w', out)
  | (.store i l offset byte, out), w' => w.Through i l ∧ exec w (.writeByte l offset byte) = some (w', out)

/-- The objects that a plain call is made on are alive. -/
def Op.ready (w : World) : Op → Prop
  | .construct elem _ _ => 0 < elem
  | .promote elem count source _ => 0 < elem ∧ source.length = count * elem
  | .destroyBuf i | .resize i _ _ | .clear i | .clone i _ | .toCpu i | .fromOutputBuffer i | .fromInputBuffer i
  | .getReadHandle i | .getWriteHandle i | .finalizeWriteHandle i | .holdReaderReference i => (w.buf i).isSome
  | .moveRead j | .destroyRead j => (w.read j).isSome
  | .assignRead i j => (w.read i).isSome ∧ (w.read j).isSome
  | .moveWrite l | .destroyWrite l => (w.write l).isSome
  | .assignWrite k l => (w.write k).isSome ∧ (w.write l).isSome
  | .createDescriptor impl _ _ => (impl >>= w.buf).all fun s => s.elem == 1
  | .onDiscoveringEndpoint _ _ | .outside _ => True
  | .adopt _ _ _ | .assign _ _ | .writeByte _ _ _ => False

/-! ### The relation -/

/-- The bytes behind a pointer. -/
def World.Bytes (w : World) (ptr : Option Nat) (l : List UInt8) : Prop :=
  ptr = none ∧ l = [] ∨ ∃ b, ptr = some b ∧ w.payload b = some l

/-- The buffer in slot `i` has elements of size `x.1` and the bytes that are known in `x.2`. -/
def Shown (w : World) (i : Nat) (x : Nat × List (Option UInt8)) : Prop :=
  ∃ s l, w.buf i = some s ∧ s.elem = x.1 ∧ Has w s l ∧ Agrees x.2 l

/-- The read handle in slot `j` is on the bytes `l`. -/
def Reading (w : World) (j : Nat) (l : List UInt8) : Prop := ∃ r, w.read j = some r ∧ w.Bytes r.dataPtr l

structure Shows (w : World) (a : Arrays) : Prop where
  live {i : Nat} : a.bufs i = none → w.buf i = none
  buf {i : Nat} {x : Nat × List (Option UInt8)} : a.bufs i = some x → Shown w i x
  read {j : Nat} {l : List UInt8} : a.reads j = some l → Reading w j l

section
variable {E : Scope} {w w' : World} {a a' : Arrays} {i j k n elem count : Nat} {s : Buf} {r : ReadHandle}
  {x : Nat × List (Option UInt8)} {o : Option (Nat × List (Option UInt8))} {l bytes : List UInt8} {op : Op} {out : Out}
  {env : AllocEnv}

namespace Arrays

theorem bufs_put : (a.put i o).bufs k = if k = i then o else a.bufs k := Function.update_apply a.bufs i o k

theorem reads_hold {o : Option (List UInt8)} : (a.hold j o).reads k = if k = j then o else a.reads k :=
  Function.update_apply a.reads j o k

end Arrays

theorem Shown.keep (h : Shown w i x) (hf : Frame E w w') (hb : ¬ E.buf i)
    (hE : ∀ s b, w.buf i = some s → s.shared.dataPtr = some b → ¬ E.block b) : Shown w' i x := by
  obtain ⟨s, l, hs, helem, hhas, hagrees⟩ := h
  obtain ⟨s', hs', he, hhas'⟩ := hhas.frame hs hf hb fun b => hE s b hs
  exact ⟨s', l, hs', he.trans helem, hhas', hagrees⟩

theorem Reading.keep (h : Reading w j l) (hf : Frame E w w') (hr : ¬ E.read j)
    (hE : ∀ r b, w.read j = some r → r.dataPtr = some b → ¬ E.block b) : Reading w' j l := by
  obtain ⟨r, hread, hnone | ⟨b, hb, hp⟩⟩ := h
  · exact ⟨r, hf.read hread hr, .inl hnone⟩
  · exact ⟨r, hf.read hread hr, .inr ⟨b, hb, hf.payload hp (hE r b hread hb)⟩⟩

/-- A call that writes to blocks only that nobody has. -/
theorem Shows.next (h : Shows w a) (hi : Inv w []) (hf : Frame E w w') (hE : ∀ b, E.block b → w.Spare b)
    (hlive : ∀ i, a'.bufs i = none → w'.buf i = none)
    (hb : ∀ i x, a'.bufs i = some x → ¬ E.buf i ∧ a.bufs i = some x ∨ Shown w' i x)
    (hr : ∀ j l, a'.reads j = some l → ¬ E.read j ∧ a.reads j = some l ∨ Reading w' j l) : Shows w' a' := by
  refine ⟨fun {i} => hlive i, fun {i x} hx => ?_, fun {j l} hl => ?_⟩
  · rcases hb i x hx with ⟨hno, hold⟩ | hshown
    · exact (h.buf hold).keep hf hno fun s b hs hp hblock => (World.Holds.buf hs).not_spare hp (hE b hblock)
    · exact hshown
  · rcases hr j l hl with ⟨hno, hold⟩ | hreading
    · exact (h.read hold).keep hf hno fun r b hread hp hblock => hi.read_not_spare hread hp (hE b hblock)
    · exact hreading

/-- A call that changes no array. -/
theorem Shows.same (h : Shows w a) (hi : Inv w []) (hf : Frame E w w') (hE : ∀ b, E.block b → w.Spare b)
    (hnew : NoNew none w w') (hb : ∀ i, ¬ E.buf i) (hr : ∀ j, ¬ E.read j) : Shows w' a :=
  h.next hi hf hE (fun i hnone => hnew i (Option.some_ne_none i).symm (h.live hnone)) (fun i _ hx => .inl ⟨hb i, hx⟩)
    fun j _ hl => .inl ⟨hr j, hl⟩

/-- A call that leaves an array in slot `i`. -/
theorem Shows.put (h : Shows w a) (hi : Inv w []) (hf : Frame E w w') (hE : ∀ b, E.block b → w.Spare b)
    (hnew : NoNew (some i) w w') (hb : ∀ k, E.buf k → k = i) (hr : ∀ j, ¬ E.read j) (hx : Shown w' i x) :
    Shows w' (a.put i (some x)) := by
  refine h.next hi hf hE (fun k hnone => ?_) (fun k y hy => ?_) fun j _ hl => .inl ⟨hr j, hl⟩
  · rw [Arrays.bufs_put] at hnone
    split at hnone
    · cases hnone
    · rename_i hk
      exact hnew k (fun he => hk (Option.some.inj he).symm) (h.live hnone)
  · rw [Arrays.bufs_put] at hy
    split at hy
    · rename_i hk
      cases hy
      rw [hk]
      exact .inr hx
    · exact .inl ⟨fun hE => absurd (hb k hE) ‹_›, hy⟩

/-- A call that makes a read handle in slot `j`. -/
theorem Shows.hold (h : Shows w a) (hi : Inv w []) (hf : Frame E w w') (hE : ∀ b, E.block b → w.Spare b)
    (hnew : NoNew none w w') (hb : ∀ i, ¬ E.buf i) (hr : ∀ k, ¬ E.read k) (hl : Reading w' j l) :
    Shows w' (a.hold j (some l)) := by
  refine h.next hi hf hE (fun i hnone => hnew i (Option.some_ne_none i).symm (h.live hnone))
    (fun i _ hx => .inl ⟨hb i, hx⟩) fun k m hm => ?_
  rw [Arrays.reads_hold] at hm
  split at hm
  · rename_i hk
    cases hm
    rw [hk]
    exact .inr hl
  · exact .inl ⟨hr k, hm⟩

/-! ### Steps -/

theorem Shows.fresh_buf (h : Shows w a) (hj : w.buf j = none) : a.bufs j = none := by
  cases hx : a.bufs j with
  | none => rfl
  | some x =>
    obtain ⟨s, l, hs, -⟩ := h.buf hx
    rw [hj] at hs
    cases hs

theorem Shows.fresh_read (h : Shows w a) (hj : w.read j = none) : a.reads j = none := by
  cases hl : a.reads j with
  | none => rfl
  | some l =>
    obtain ⟨r, hr, -⟩ := h.read hl
    rw [hj] at hr
    cases hr

/-- The array of a live buffer. -/
theorem Shows.array (h : Shows w a) (hs : w.buf i = some s) :
    ∃ l bytes, a.bufs i = some (s.elem, l) ∧ Has w s bytes ∧ Agrees l bytes := by
  cases hx : a.bufs i with
  | none =>
    rw [h.live hx] at hs
    cases hs
  | some x =>
    obtain ⟨t, l, ht, helem, hhas, hagrees⟩ := h.buf hx
    rw [hs] at ht
    cases ht
    exact ⟨x.2, l, by rw [helem], hhas, hagrees⟩

/-- A call that throws has changed no array. -/
theorem Shows.threw {y : Exn} (h : Shows w a) (hi : Inv w []) (hp : op.plain)
    (he : exec w op = some (w', .threw y)) : Shows w' a := by
  have hdis := exec_threw hi he
  have hf := exec_frame hi he
  have hnew := exec_noNew hi he
  have hmakes : op.makes (.threw y) = none := by
    cases op <;> rfl
  rw [hmakes] at hnew
  refine ⟨fun {i} hnone => hnew i (Option.some_ne_none i).symm (h.live hnone), fun {i x} hx => ?_, fun {j l} hl => ?_⟩
  · obtain ⟨s, l, hs, helem, hhas, hagrees⟩ := h.buf hx
    obtain ⟨s', hs', h1, h2, h3, -⟩ := hdis.buf hs
    refine ⟨s', l, hs', h1.trans helem, ⟨by rw [h2, h1]; exact hhas.length, ?_⟩, hagrees⟩
    rw [h3]
    rcases hhas.bytes with hnone | ⟨b, hb, hpay⟩
    · exact .inl hnone
    · exact .inr ⟨b, hb, (hdis.contents hs hb).trans hpay⟩
  · refine (h.read hl).keep hf ?_ fun r b hr hb hE => ?_
    · cases op with
      | moveRead j | destroyRead j | assignRead i j => cases exec_ran he
      | _ => exact id
    · cases op with
      | resize i count env => exact hi.read_not_spare hr hb hE
      | clone i env => exact hi.read_not_spare hr hb hE
      | promote elem count source env => exact hi.read_not_spare hr hb hE
      | writeByte l offset byte => cases hp
      | _ => exact hE

/-- A store through a write handle. -/
theorem Shows.store {m offset : Nat} {byte : UInt8} (h : Shows w a) (hi : Inv w []) (ht : w.Through i m)
    (he : w.writeByte m offset byte = some w') :
    ∃ elem l, a.bufs i = some (elem, l) ∧ offset < l.length ∧
      Shows w' (a.put i (some (elem, l.set offset (some byte)))) := by
  obtain ⟨s, h', n, hs, hl, hn, ⟨st, hst, hu⟩, hstate, hptr⟩ := ht
  obtain ⟨l, bytes, hx, hhas, hagrees⟩ := h.array hs
  have hf := World.writeByte_frame hl he
  obtain ⟨h'', b, block, hl', hb, hblock, hlt, rfl⟩ := World.writeByte_ok he
  rw [hl] at hl'
  cases hl'
  have hsb := hptr.trans hb
  have hpayload : block.payload = bytes := by
    obtain ⟨hno, -⟩ | ⟨c, hc, hpay⟩ := hhas.bytes
    · rw [hsb] at hno
      cases hno
    · rw [hsb] at hc
      cases hc
      unfold World.payload at hpay
      rw [hblock] at hpay
      exact Option.some.inj hpay
  rw [hpayload, hagrees.length] at hlt
  refine ⟨s.elem, l, hx, hlt, fun {k} hnone => ?_, fun {k y} hy => ?_, fun {j m} hm => ?_⟩
  · rw [Arrays.bufs_put] at hnone
    split at hnone
    · cases hnone
    · exact h.live hnone
  · rw [Arrays.bufs_put] at hy
    split at hy
    · rename_i hk
      cases hy
      rw [hk]
      refine ⟨s, bytes.set offset byte, hs, rfl, ⟨by rw [List.length_set]; exact hhas.length, .inr ⟨b, hsb, ?_⟩⟩,
        hagrees.set offset byte⟩
      show ((w.pool.modifyBlock b _).allBlocks[b]?).map _ = _
      rw [Pool.get_modifyBlock, hblock, Option.map_some, if_pos rfl, Option.map_some, hpayload]
    · rename_i hk
      refine (h.buf hy).keep hf id fun t c ht hc hE => hk ?_
      rw [hb] at hE
      cases hE
      exact hi.slot_unique ht hs hc hsb
  · refine (h.read hm).keep hf id fun r c hr hc hE => ?_
    rw [hb] at hE
    cases hE
    -- the buffer has a writer, so nobody reads its block
    have hbound := hi.readBound hr (.buf hs) (by rw [hc]; exact Option.some_ne_none _) (hsb.trans hc.symm)
    have hle := le_total (f := points (·.state) n) (l := w.reads) hr
    rw [points_eq_one (hbound.symm.trans hstate)] at hle
    have hzero := ((hi.states hst).inUse hu).2
    unfold World.readers at hzero
    omega

/-- A read handle on a buffer that is shown. -/
theorem Shows.getReadHandle (h : Shows w a) (hi : Inv w []) (he : w.getReadHandle i = some (w', .ok j)) :
    ∃ elem l bytes, a.bufs i = some (elem, l) ∧ Agrees l bytes ∧ a.reads j = none ∧
      Shows w' (a.hold j (some bytes)) := by
  obtain ⟨s, -, -, hs, -⟩ := World.getReadHandle_cases hi he
  obtain ⟨l, bytes, hx, hhas, hagrees⟩ := h.array hs
  have hf := World.getReadHandle_frame he
  have hfresh : a.reads j = none := by
    refine h.fresh_read ?_
    rw [World.getReadHandle_new hi he]
    exact get_length
  refine ⟨s.elem, l, bytes, hx, hagrees, hfresh, ?_⟩
  refine h.hold hi hf (fun _ hE => hE.elim) (World.getReadHandle_noNew hi he) (fun _ hE => hE) (fun _ hE => hE) ?_
  obtain ⟨r, hr, hptr⟩ := World.getReadHandle_on hi hs he
  refine ⟨r, hr, ?_⟩
  rw [hptr]
  rcases hhas.bytes with hnone | ⟨b, hb, hpay⟩
  · exact .inl hnone
  · exact .inr ⟨b, hb, hf.payload hpay id⟩

/-- The handle on a promoted buffer is new. -/
theorem World.promote_new (hi : Inv w []) {source : List UInt8}
    (he : w.promote elem count source env = some (w', .ok k)) : w.read k = none := by
  rcases promote_cases he with ⟨-, -, x, hx⟩ | ⟨-, ⟨x, hx, -⟩ | ⟨w₁, j, ha, ⟨x, w₂, hx, -⟩ |
    ⟨w₂, l, w₃, h₂, h₃, ⟨x, w₄, hx, -⟩ | ⟨w₄, r, h₄, -, hres⟩⟩⟩⟩
  iterate 4 cases hx
  cases hres
  have hi₁ := hi.construct Nat.one_pos ha
  obtain ⟨-, t, ht, -⟩ := construct_slot hi ha
  rw [getReadHandle_new (((hi₁.getWriteHandle h₂).fill h₃).destroyWrite l) h₄]
  cases hr : w.read (w₃.destroyWrite l).reads.length with
  | none => rfl
  | some r =>
    have hr₄ := (writeThrough_frame hi₁ ht h₂ h₃).read ((construct_frame ha).read hr id) id
    rw [read, get_length] at hr₄
    cases hr₄

theorem World.clone_new (hi : Inv w []) (he : w.clone i env = some (w', .ok k)) : w.buf k = none := by
  obtain ⟨s, -, ⟨x, hx, -⟩ | ⟨w₁, j, ha, hrest⟩⟩ := clone_cases he
  · cases hx
  · have hj := (construct_slot hi ha).1
    rcases hrest with ⟨-, -, hres⟩ | ⟨-, ⟨x, w₂, hx, -⟩ | ⟨hres, -⟩⟩
    · cases hres
      rw [hj]
      exact get_length
    · cases hx
    · cases hres
      rw [hj]
      exact get_length

theorem World.read_transferRead (hr : w.read i = some {}) (hj : w.read j = some r) (hij : i ≠ j) :
    (w.transferRead i j).read i = some r := by
  unfold transferRead
  rw [hj]
  have hj' : (w.setRead i (some r)).read j = some r := ((read_setRead hr).trans (if_neg hij.symm)).trans hj
  exact ((read_setRead hj').trans (if_neg hij)).trans ((read_setRead hr).trans (if_pos rfl))

/-- A read handle is moved from slot `j` to slot `i`. -/
theorem Shows.moved (h : Shows w a) (hi : Inv w []) (hf : Frame { read := fun m => m = i ∨ m = j } w w')
    (hbufs : w'.bufs = w.bufs) (hread : w'.read i = w.read j) :
    Shows w' ((a.hold i (a.reads j)).hold j none) := by
  refine h.next hi hf (fun _ hE => hE.elim)
    (fun m hnone => NoNew.of_bufs (o := none) hbufs m (Option.some_ne_none m).symm (h.live hnone))
    (fun m _ hx => .inl ⟨id, hx⟩) fun m l hl => ?_
  rw [Arrays.reads_hold, Arrays.reads_hold] at hl
  split at hl
  · cases hl
  · rename_i hmj
    split at hl
    · rename_i hmi
      obtain ⟨r, hr, hbytes⟩ := h.read hl
      refine .inr ⟨r, by rw [hmi, hread]; exact hr, ?_⟩
      rcases hbytes with hnone | ⟨b, hb, hpay⟩
      · exact .inl hnone
      · exact .inr ⟨b, hb, hf.payload hpay id⟩
    · rename_i hmi
      exact .inl ⟨fun hm => hm.elim hmi hmj, hl⟩

theorem answered {α : Type} {f : α → Out} {res : Except Exn α} (hout : ∀ y, Out.answer f res ≠ .threw y) :
    ∃ x, res = .ok x := by
  cases res with
  | error y => exact absurd rfl (hout y)
  | ok x => exact ⟨x, rfl⟩

/-- What a plain call answers, the reference answers. -/
theorem Shows.call (h : Shows w a) (hi : Inv w []) (hp : op.plain) (he : exec w op = some (w', out)) :
    ∃ a', a.Next (.call op, out) a' ∧ Shows w' a' := by
  by_cases hthrew : ∃ y, out = .threw y
  · obtain ⟨y, rfl⟩ := hthrew
    exact ⟨a, rfl, h.threw hi hp he⟩
  have hout : ∀ y, out ≠ .threw y := fun y hy => hthrew ⟨y, hy⟩
  have hf := exec_frame hi he
  have hnew := exec_noNew hi he
  have hnone : ∀ b, False → w.Spare b := fun _ hE => hE.elim
  cases exec_ran he with
  | construct helem hc =>
    obtain ⟨j, rfl⟩ := answered hout
    obtain ⟨t, bytes, ht, h1, h2, hhas⟩ := World.construct_has hi helem hc
    have hfresh : a.bufs j = none := by
      refine h.fresh_buf ?_
      rw [(World.construct_slot hi hc).1]
      exact get_length
    refine ⟨_, ⟨hfresh, rfl⟩, h.put hi hf hnone hnew (fun _ hE => hE.elim) (fun _ hE => hE) ?_⟩
    exact ⟨t, bytes, ht, h1, hhas, .unknown (by rw [hhas.length, h1, h2])⟩
  | destroyBuf =>
    refine ⟨_, rfl, h.next hi hf hnone (fun k hk => ?_) (fun k x hx => ?_) fun _ _ hl => .inl ⟨id, hl⟩⟩
    · rw [Arrays.bufs_put] at hk
      split at hk
      · rename_i hki
        rw [hki]
        exact World.destroyBuf_none
      · exact hnew k (Option.some_ne_none k).symm (h.live hk)
    · rw [Arrays.bufs_put] at hx
      split at hx
      · cases hx
      · exact .inl ⟨‹_›, hx⟩
  | resize hres =>
    obtain ⟨_, rfl⟩ := answered hout
    obtain ⟨s, hs, -⟩ := World.resize_cases hres
    obtain ⟨l, bytes, hx, hhas, hagrees⟩ := h.array hs
    obtain ⟨s', bytes', hs', helem, hsize, hhas', hpre⟩ := World.resize_has hi hs hhas hres
    refine ⟨_, ⟨s.elem, l, hx, rfl⟩, h.put hi hf (fun _ hE => hE) hnew.any (fun _ hE => hE) (fun _ hE => hE) ?_⟩
    exact ⟨s', bytes', hs', helem, hhas', hagrees.resized (by rw [hhas'.length, hsize, helem]) hpre⟩
  | @clear i s hs =>
    obtain ⟨l, bytes, hx, -⟩ := h.array hs
    obtain ⟨s', hs', helem, hhas⟩ := World.clear_has hs
    refine ⟨_, ⟨s.elem, l, hx, rfl⟩, h.put hi hf hnone hnew.any (fun _ hE => hE) (fun _ hE => hE) ?_⟩
    exact ⟨s', [], hs', helem, hhas, .nil⟩
  | clone hclone =>
    obtain ⟨j, rfl⟩ := answered hout
    obtain ⟨s, hs, -⟩ := World.clone_cases hclone
    obtain ⟨l, bytes, hx, hhas, hagrees⟩ := h.array hs
    obtain ⟨t, ht, helem, hhas'⟩ := World.clone_has hi hs hhas hclone
    refine ⟨_, ⟨_, hx, h.fresh_buf (World.clone_new hi hclone), rfl⟩,
      h.put hi hf (fun _ hE => hE) hnew (fun _ hE => hE.elim) (fun _ hE => hE) ?_⟩
    exact ⟨t, bytes, ht, helem, hhas', hagrees⟩
  | toCpu hcpu =>
    obtain ⟨bytes, rfl⟩ := answered hout
    obtain ⟨s, hs, -⟩ := World.toCpu_cases hcpu
    obtain ⟨l, bytes', hx, hhas, hagrees⟩ := h.array hs
    cases World.toCpu_has hi hs hhas hcpu
    exact ⟨a, ⟨s.elem, l, hx, hagrees, rfl⟩, h.same hi hf hnone hnew (fun _ hE => hE) fun _ hE => hE⟩
  | fromInputBuffer hinput =>
    obtain ⟨j, rfl⟩ := answered hout
    obtain ⟨-, x, hx⟩ | hread := World.fromInputBuffer_cases hinput
    · cases hx
    · obtain ⟨elem, l, bytes, hx, hagrees, hfresh, hshows⟩ := h.getReadHandle hi hread
      exact ⟨_, ⟨elem, l, bytes, hx, hagrees, hfresh, rfl⟩, hshows⟩
  | getReadHandle hread =>
    obtain ⟨j, rfl⟩ := answered hout
    obtain ⟨elem, l, bytes, hx, hagrees, hfresh, hshows⟩ := h.getReadHandle hi hread
    exact ⟨_, ⟨elem, l, bytes, hx, hagrees, hfresh, rfl⟩, hshows⟩
  | promote helem hlen hpromote =>
    obtain ⟨j, rfl⟩ := answered hout
    obtain ⟨r, b, hr, hb, hpay⟩ := World.promote_shows hi helem hlen hpromote
    refine ⟨_, ⟨h.fresh_read (World.promote_new hi hpromote), rfl⟩, ?_⟩
    exact h.hold hi hf (fun _ hE => hE) hnew (fun _ hE => hE) (fun _ hE => hE) ⟨r, hr, .inr ⟨b, hb, hpay⟩⟩
  | @moveRead j r hr =>
    have hlt := lt_length hr
    have hblank : (w.addRead {}).read w.reads.length = some {} := World.read_addRead.trans (if_pos rfl)
    have hold : (w.addRead {}).read j = some r := (World.read_addRead.trans (if_neg (by omega))).trans hr
    refine ⟨_, ⟨h.fresh_read get_length, rfl⟩, h.moved hi (hf.mono (fun _ _ _ hE => hE.elim) (fun _ _ _ hE => .inr hE)
      (fun _ _ _ hE => hE) fun _ _ hE => hE) World.bufs_transferRead ?_⟩
    rw [World.read_transferRead hblank hold (by omega), hr]
  | @assignRead i j t r ht hr =>
    refine ⟨_, rfl, ?_⟩
    by_cases hij : i = j
    · rw [if_pos hij, if_pos hij]
      exact h
    · rw [if_neg hij] at hf
      rw [if_neg hij, if_neg hij]
      have hold : (w.releaseRead i).read j = some r := (World.releaseRead_frame i).read hr (Ne.symm hij)
      refine h.moved hi (hf.mono (fun _ _ _ hE => hE.elim) (fun _ _ _ hE => hE.2) (fun _ _ _ hE => hE)
        fun _ _ hE => hE) (World.bufs_transferRead.trans World.bufs_releaseRead) ?_
      rw [World.read_transferRead (World.releaseRead_read ht) hold hij, hr]
  | destroyRead =>
    refine ⟨_, rfl, h.next hi hf hnone (fun k hk => hnew k (Option.some_ne_none k).symm (h.live hk))
      (fun _ _ hx => .inl ⟨id, hx⟩) fun k l hl => ?_⟩
    rw [Arrays.reads_hold] at hl
    split at hl
    · cases hl
    · exact .inl ⟨‹_›, hl⟩
  | fromOutputBuffer | getWriteHandle | holdReaderReference =>
    obtain ⟨_, rfl⟩ := answered hout
    exact ⟨a, rfl, h.same hi hf hnone hnew (fun _ hE => hE) fun _ hE => hE⟩
  | finalizeWriteHandle | moveWrite | assignWrite | destroyWrite | createDescriptor | onDiscoveringEndpoint | outside =>
    exact ⟨a, rfl, h.same hi hf hnone hnew (fun _ hE => hE) fun _ hE => hE⟩
  | adopt => cases hp
  | assign => cases hp
  | writeByte => cases hp

theorem access_inv {x : Access × Out} (hi : Inv w []) (he : access w x w') : Inv w' [] := by
  obtain ⟨act, out⟩ := x
  cases act with
  | call op => exact hi.exec he.2
  | store i l offset byte => exact hi.exec he.2

theorem forward : Simulation.Forward access Arrays.Next fun w a => Inv w [] ∧ Shows w a := by
  rintro w ⟨act, out⟩ w' a ⟨hi, h⟩ he
  have hi' := access_inv hi he
  cases act with
  | call op =>
    obtain ⟨a', hnext, hshows⟩ := h.call hi he.1 he.2
    exact ⟨a', hnext, hi', hshows⟩
  | store i l offset byte =>
    obtain ⟨ht, he⟩ := he
    obtain ⟨w₁, hw, he⟩ := Option.bind_eq_some_iff.1 he
    cases he
    obtain ⟨elem, m, hx, hlt, hshows⟩ := h.store hi ht hw
    exact ⟨_, ⟨elem, m, hx, hlt, rfl⟩, hi', hshows⟩

/-- Plain calls on live objects answer or throw. -/
theorem Shows.total (h : Shows w a) (hi : Inv w []) (hr : op.ready w) : (exec w op).isSome := by
  have hsome : ∀ {α : Type} {m : Option (World × Except Exn α)} (f : α → Out), (∃ v res, m = some (v, res)) →
      (m >>= fun p => some (Out.of f p)).isSome := by
    rintro α m f ⟨v, res, rfl⟩
    rfl
  cases op with
  | construct elem count env =>
    have helem : 0 < elem := hr
    simp [exec, helem, guard]
  | promote elem count source env =>
    obtain ⟨helem, hlen⟩ := hr
    obtain ⟨v, res, he⟩ : ∃ v res, w.promote elem count source env = some (v, res) :=
      World.promote_total hi helem hlen
    simp [exec, helem, hlen, he, guard]
  | resize i count env =>
    obtain ⟨s, hs⟩ := Option.isSome_iff_exists.1 hr
    obtain ⟨l, bytes, -, hhas, -⟩ := h.array hs
    exact hsome _ (World.resize_total hi hs hhas)
  | clone i env =>
    obtain ⟨s, hs⟩ := Option.isSome_iff_exists.1 hr
    obtain ⟨l, bytes, -, hhas, -⟩ := h.array hs
    exact hsome _ (World.clone_total hi hs hhas)
  | toCpu i =>
    obtain ⟨s, hs⟩ := Option.isSome_iff_exists.1 hr
    obtain ⟨l, bytes, -, hhas, -⟩ := h.array hs
    exact hsome _ (World.toCpu_total hi hs hhas)
  | fromOutputBuffer i =>
    obtain ⟨s, hs⟩ := Option.isSome_iff_exists.1 hr
    refine hsome _ ?_
    unfold World.fromOutputBuffer
    rw [hs, Option.bind_eq_bind, Option.bind_some]
    split
    · exact ⟨_, _, rfl⟩
    · exact World.getWriteHandle_total hi hs
  | fromInputBuffer i =>
    obtain ⟨s, hs⟩ := Option.isSome_iff_exists.1 hr
    refine hsome _ ?_
    unfold World.fromInputBuffer
    rw [hs, Option.bind_eq_bind, Option.bind_some]
    split
    · exact ⟨_, _, rfl⟩
    · exact World.getReadHandle_total hi hs
  | getReadHandle i =>
    obtain ⟨s, hs⟩ := Option.isSome_iff_exists.1 hr
    exact hsome _ (World.getReadHandle_total hi hs)
  | getWriteHandle i =>
    obtain ⟨s, hs⟩ := Option.isSome_iff_exists.1 hr
    exact hsome _ (World.getWriteHandle_total hi hs)
  | holdReaderReference i =>
    obtain ⟨s, hs⟩ := Option.isSome_iff_exists.1 hr
    refine hsome _ ?_
    unfold World.holdReaderReference
    rw [hs, Option.bind_eq_bind, Option.bind_some]
    split
    · exact ⟨_, _, rfl⟩
    · split <;> exact ⟨_, _, rfl⟩
  | destroyBuf i | clear i | finalizeWriteHandle i | moveRead i | destroyRead i | moveWrite i | destroyWrite i =>
    obtain ⟨s, hs⟩ := Option.isSome_iff_exists.1 hr
    simp [exec, hs]
  | assignRead i j | assignWrite i j =>
    obtain ⟨s, hs⟩ := Option.isSome_iff_exists.1 hr.1
    obtain ⟨t, ht⟩ := Option.isSome_iff_exists.1 hr.2
    simp [exec, hs, ht]
  | createDescriptor impl gid e =>
    have hguard : (guard ((impl >>= w.buf).all fun s => s.elem == 1) : Option Unit) = some () := if_pos hr
    simp only [exec, hguard]
    rfl
  | onDiscoveringEndpoint gid supported => rfl
  | outside act => rfl
  | adopt j elem size => exact hr.elim
  | assign i j => exact hr.elim
  | writeByte l offset byte => exact hr.elim

theorem Init.shows (hw : Init w) : Shows w {} := by
  obtain ⟨euid, pid, metadata, rfl⟩ := hw
  refine ⟨fun _ => rfl, fun hx => ?_, fun hl => ?_⟩
  · cases hx
  · cases hl

/-- Buffers are independent byte arrays: whatever is done to them, the reference answers the same, and the buffers and
read handles show its arrays all along. No plain call on live objects gets stuck, and one that throws changes
nothing. -/
theorem buffers_are_arrays {path : List ((Access × Out) × World)} (hw : Init w)
    (h : Simulation.Path access w path w') :
    (∃ path' a, Simulation.Path Arrays.Next {} path' a ∧ Shows w' a ∧
      List.Forall₂ (fun x y => x.1 = y.1 ∧ Shows x.2 y.2) path path') ∧
    (∀ op, op.ready w' → (exec w' op).isSome) ∧
    ∀ op y v, exec w' op = some (v, .threw y) → Undisturbed w' v := by
  obtain ⟨path', a, hpath, ⟨hi, hshows⟩, hall⟩ := forward.follow h ⟨hw.inv, hw.shows⟩
  refine ⟨⟨path', a, hpath, hshows, hall.imp fun _ _ hxy => ⟨hxy.1, hxy.2.2⟩⟩, fun op hr => hshows.total hi hr, ?_⟩
  intro op y v he
  exact exec_threw hi he

end

/-- A buffer is written, grows, is read and goes, and its block is taken again. -/
def grown : List (Access × Out) :=
  [(.call (.construct 1 2 {}), .slot 0), (.call (.getWriteHandle 0), .slot 0), (.store 0 0 1 7, .done),
    (.call (.destroyWrite 0), .done), (.call (.resize 0 3 {}), .done), (.call (.toCpu 0), .bytes [0, 7, 0]),
    (.call (.fromInputBuffer 0), .slot 2), (.call (.destroyBuf 0), .done), (.call (.construct 1 3 {}), .slot 2)]

/-- The process after `n` of these accesses. -/
def grownAt (n : Nat) : World :=
  (Machine.run step {} (List.take n [.construct 1 2 {}, .getWriteHandle 0, .writeByte 0 1 7, .destroyWrite 0,
    .resize 0 3 {}, .toCpu 0, .fromInputBuffer 0, .destroyBuf 0, .construct 1 3 {}])).getD {}

theorem called {w w' : World} (op : Op) (out : Out) (hp : op.plain) (he : exec w op = some (w', out)) :
    access w (.call op, out) w' := ⟨hp, he⟩

theorem stored {w w' : World} {i l offset : Nat} {byte : UInt8} (ht : w.Through i l)
    (he : exec w (.writeByte l offset byte) = some (w', .done)) : access w (.store i l offset byte, .done) w' :=
      ⟨ht, he⟩

theorem grown_path : ∃ path w', Simulation.Path access {} path w' ∧ path.map (·.1) = grown := by
  have h₁ : Simulation.Path access {} _ (grownAt 1) :=
    Simulation.Path.nil.snoc (called (.construct 1 2 {}) (.slot 0) rfl rfl)
  have h₂ : Simulation.Path access {} _ (grownAt 2) := h₁.snoc (called (.getWriteHandle 0) (.slot 0) rfl rfl)
  have ht : (grownAt 2).Through 0 0 := ⟨_, _, 0, rfl, rfl, rfl, ⟨_, rfl, rfl⟩, rfl, rfl⟩
  have hstored : exec (grownAt 2) (.writeByte 0 1 7) = some (grownAt 3, .done) := rfl
  have h₃ : Simulation.Path access {} _ (grownAt 3) := h₂.snoc (stored ht hstored)
  have h₄ : Simulation.Path access {} _ (grownAt 4) := h₃.snoc (called (.destroyWrite 0) .done rfl rfl)
  have h₅ : Simulation.Path access {} _ (grownAt 5) := h₄.snoc (called (.resize 0 3 {}) .done rfl rfl)
  have h₆ : Simulation.Path access {} _ (grownAt 6) := h₅.snoc (called (.toCpu 0) (.bytes [0, 7, 0]) rfl rfl)
  have h₇ : Simulation.Path access {} _ (grownAt 7) := h₆.snoc (called (.fromInputBuffer 0) (.slot 2) rfl rfl)
  have h₈ : Simulation.Path access {} _ (grownAt 8) := h₇.snoc (called (.destroyBuf 0) .done rfl rfl)
  have h₉ : Simulation.Path access {} _ (grownAt 9) := h₈.snoc (called (.construct 1 3 {}) (.slot 2) rfl rfl)
  exact ⟨_, _, h₉, rfl⟩

theorem buffers_are_arrays_grown : ∃ path w', Simulation.Path access {} path w' ∧ path.map (·.1) = grown ∧
    ∃ path' a, Simulation.Path Arrays.Next {} path' a ∧ Shows w' a ∧
      List.Forall₂ (fun x y => x.1 = y.1 ∧ Shows x.2 y.2) path path' := by
  obtain ⟨path, w', h, hlabels⟩ := grown_path
  exact ⟨path, w', h, hlabels, (buffers_are_arrays ⟨0, 1, "", rfl⟩ h).1⟩

end MemfdBuffer.Proc
