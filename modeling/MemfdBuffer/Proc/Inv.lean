import MemfdBuffer.Proc.World

/-!
# What holds between the calls of a process

The invariant weighs the objects of a process against its blocks and handle states: a block in use has
one buffer, its reader count is that of the leases held here and outside, a `HandleState` counts its read
handles and admits one writer in all. `due` are effects already taken out of an object and not yet done;
between the calls there are none.
-/

namespace MemfdBuffer.Proc

open Slots

/-- The weight of an object under key `n`, for a field that points somewhere. -/
def points {α : Type} (p : α → Option Nat) (n : Nat) (x : α) : Nat := if p x = some n then 1 else 0

theorem points_pos {α : Type} {p : α → Option Nat} {n : Nat} {x : α} : 0 < points p n x ↔ p x = some n := by
  unfold points; split <;> simp_all

theorem points_eq_one {α : Type} {p : α → Option Nat} {n : Nat} {x : α} (h : p x = some n) :
    points p n x = 1 := if_pos h

theorem points_eq_zero {α : Type} {p : α → Option Nat} {n : Nat} {x : α} (h : p x ≠ some n) :
    points p n x = 0 := if_neg h

theorem points_le_one {α : Type} {p : α → Option Nat} {n : Nat} {x : α} : points p n x ≤ 1 := by
  unfold points; split <;> omega

/-- The weight of the buffer a read handle has been given. -/
def promoted (f : SharedBuffer → Nat) (r : ReadHandle) : Nat :=
  r.promotedBuffer.elim 0 fun impl => f impl.sharedBuffer

namespace World
variable (w : World)

/-- The weight of all buffers. -/
def bufSum (f : SharedBuffer → Nat) : Nat := total (fun s => f s.shared) w.bufs + total (promoted f) w.reads

/-- The buffers that hold block `b`. -/
def owners (b : Nat) : Nat := w.bufSum (points (·.dataPtr) b)

/-- The reader leases held here on block `b`. -/
def leases (b : Nat) : Nat := w.bufSum (points (·.heldReaderLease) b) + total (points (·.readerLease) b) w.reads

/-- The buffers that share state `h`. -/
def sharers (h : Nat) : Nat := w.bufSum (points (·.handleState) h)

def readers (h : Nat) : Nat := total (points (·.state) h) w.reads

def writers (h : Nat) : Nat := total (points (·.state) h) w.writes

/-- `x` is a live buffer, in a slot or inside a read handle. -/
def Holds (x : SharedBuffer) : Prop :=
  (∃ i s, w.buf i = some s ∧ s.shared = x) ∨
    ∃ j r impl, w.read j = some r ∧ r.promotedBuffer = some impl ∧ impl.sharedBuffer = x

end World

/-- A buffer of the own pool, or an empty one. -/
structure Local (w : World) (x : SharedBuffer) : Prop where
  deleter : x.deleter = x.dataPtr.elim .empty .poolFree
  control : x.control = x.dataPtr
  owner : x.owner = none
  writable : x.writable = true
  ipc : x.ipcPid = 0
  lease : x.heldReaderLease = none ∨ x.heldReaderLease = x.dataPtr
  block {b : Nat} : x.dataPtr = some b → ∃ block, w.pool.allBlocks[b]? = some block ∧ x.size = block.payloadSize
  empty : x.dataPtr = none → x.size = 0
  state {h : Nat} : x.handleState = some h → h < w.states.length

structure ReadOk (w : World) (r : ReadHandle) : Prop where
  lease : r.readerLease = r.dataPtr
  bound : r.dataPtr ≠ none → r.state ≠ none
  block {b : Nat} : r.dataPtr = some b → ∃ block, w.pool.allBlocks[b]? = some block
  state {h : Nat} : r.state = some h → h < w.states.length

structure WriteOk (w : World) (h : WriteHandle) : Prop where
  bound : h.dataPtr ≠ none → h.state ≠ none
  block {b : Nat} : h.dataPtr = some b → ∃ block, w.pool.allBlocks[b]? = some block
  state {n : Nat} : h.state = some n → n < w.states.length

/-- A handle state with `n` read handles and `m` write handles. -/
structure Counted (state : HandleState) (n m : Nat) : Prop where
  readers : state.activeReaders = n
  unset : state.state = .unset → m = 0
  inUse : state.state = .inUse → m = 1 ∧ n = 0
  one : m ≤ 1

structure Inv (w : World) (due : List Effect) : Prop where
  pool : w.pool.Inv
  elem {i : Nat} {s : Buf} : w.buf i = some s → 0 < s.elem
  buffers {x : SharedBuffer} : w.Holds x → Local w x
  reads {j : Nat} {r : ReadHandle} : w.read j = some r → ReadOk w r
  writes {l : Nat} {h : WriteHandle} : w.write l = some h → WriteOk w h
  owned {b : Nat} {block : SharedBufferBlock} : w.pool.allBlocks[b]? = some block →
    w.owners b + due.count (.poolFree b) = if block.inUse then 1 else 0
  leased {b : Nat} {block : SharedBufferBlock} : w.pool.allBlocks[b]? = some block →
    block.control.readerState.toNat = w.pool.outside b + w.leases b + due.count (.releaseReader b)
  states {h : Nat} {state : HandleState} : w.states[h]? = some state →
    Counted state (w.readers h) (w.writers h)
  sharers (h : Nat) : w.sharers h ≤ 1
  /-- A read handle on a block is bound to the state of the buffer that holds the block. -/
  readBound {j : Nat} {r : ReadHandle} {x : SharedBuffer} : w.read j = some r → w.Holds x →
    r.dataPtr ≠ none → x.dataPtr = r.dataPtr → x.handleState = r.state
  /-- A write handle bound to the state of a buffer points into that buffer. -/
  writeBound {l : Nat} {h : WriteHandle} {x : SharedBuffer} : w.write l = some h → w.Holds x →
    h.dataPtr ≠ none → x.handleState = h.state → x.dataPtr = h.dataPtr

section
variable {w w' : World} {due due' : List Effect} {pool : Pool} {b h i j k : Nat} {l : List Effect}
  {s : Buf} {r : ReadHandle} {x : SharedBuffer}

theorem World.Holds.buf (h : w.buf i = some s) : w.Holds s.shared := .inl ⟨i, s, h, rfl⟩

theorem World.buf_setBuf {o : Option Buf} (h : w.buf i = some s) :
    (w.setBuf i o).buf k = if k = i then o else w.buf k := get_set h

theorem World.read_setRead {o : Option ReadHandle} (h : w.read j = some r) :
    (w.setRead j o).read k = if k = j then o else w.read k := get_set h

theorem World.write_setWrite {o : Option WriteHandle} {h : WriteHandle} (hj : w.write j = some h) :
    (w.setWrite j o).write k = if k = j then o else w.write k := get_set hj

theorem Local.congr (h : Local w x)
    (hb : ∀ (b : Nat) block, w.pool.allBlocks[b]? = some block →
      ∃ block', w'.pool.allBlocks[b]? = some block' ∧ block'.payloadSize = block.payloadSize)
    (hs : w.states.length ≤ w'.states.length) : Local w' x where
  deleter := h.deleter
  control := h.control
  owner := h.owner
  writable := h.writable
  ipc := h.ipc
  lease := h.lease
  block hp := by
    obtain ⟨block, h1, h2⟩ := h.block hp
    obtain ⟨block', h3, h4⟩ := hb _ _ h1
    exact ⟨block', h3, h2.trans h4.symm⟩
  empty := h.empty
  state hp := (h.state hp).trans_le hs

theorem ReadOk.congr (h : ReadOk w r)
    (hb : ∀ (b : Nat) block, w.pool.allBlocks[b]? = some block → ∃ block', w'.pool.allBlocks[b]? = some block')
    (hs : w.states.length ≤ w'.states.length) : ReadOk w' r :=
  ⟨h.lease, h.bound, fun hp => let ⟨_, h1⟩ := h.block hp; hb _ _ h1, fun hp => (h.state hp).trans_le hs⟩

theorem WriteOk.congr {h : WriteHandle} (hw : WriteOk w h)
    (hb : ∀ (b : Nat) block, w.pool.allBlocks[b]? = some block → ∃ block', w'.pool.allBlocks[b]? = some block')
    (hs : w.states.length ≤ w'.states.length) : WriteOk w' h :=
  ⟨hw.bound, fun hp => let ⟨_, h1⟩ := hw.block hp; hb _ _ h1, fun hp => (hw.state hp).trans_le hs⟩

theorem Local.default (w : World) : Local w {} :=
  ⟨rfl, rfl, rfl, rfl, rfl, .inl rfl, nofun, fun _ => rfl, nofun⟩

theorem ReadOk.default (w : World) : ReadOk w {} :=
  ⟨rfl, fun h => absurd rfl h, nofun, nofun⟩

theorem WriteOk.default (w : World) : WriteOk w {} :=
  ⟨fun h => absurd rfl h, nofun, nofun⟩

namespace Inv

/-! ### The pool changes -/

theorem withPool (h : Inv w due) (hp : pool.Inv)
    (hb : ∀ (b : Nat) block, w.pool.allBlocks[b]? = some block →
      ∃ block', pool.allBlocks[b]? = some block' ∧ block'.payloadSize = block.payloadSize)
    (howned : ∀ (b : Nat) block, pool.allBlocks[b]? = some block →
      w.owners b + due'.count (.poolFree b) = if block.inUse then 1 else 0)
    (hleased : ∀ (b : Nat) block, pool.allBlocks[b]? = some block →
      block.control.readerState.toNat = pool.outside b + w.leases b + due'.count (.releaseReader b)) :
    Inv (w.withPool pool) due' where
  pool := hp
  elem := h.elem
  buffers hx := (h.buffers hx).congr hb le_rfl
  reads hr := (h.reads hr).congr (fun b x hx => let ⟨y, hy, _⟩ := hb b x hx; ⟨y, hy⟩) le_rfl
  writes hl := (h.writes hl).congr (fun b x hx => let ⟨y, hy, _⟩ := hb b x hx; ⟨y, hy⟩) le_rfl
  owned hb := howned _ _ hb
  leased hb := hleased _ _ hb
  states := h.states
  sharers := h.sharers
  readBound := h.readBound
  writeBound := h.writeBound

/-- The same where every block is changed in place. -/
theorem mapPool (h : Inv w due) (hp : pool.Inv) (f : Nat → SharedBufferBlock → SharedBufferBlock)
    (hget : ∀ c : Nat, pool.allBlocks[c]? = (w.pool.allBlocks[c]?).map (f c))
    (hf : ∀ c x, w.pool.allBlocks[c]? = some x → (f c x).payloadSize = x.payloadSize ∧
      w.owners c + due'.count (.poolFree c) = (if (f c x).inUse then 1 else 0) ∧
      (f c x).control.readerState.toNat = pool.outside c + w.leases c + due'.count (.releaseReader c)) :
    Inv (w.withPool pool) due' := by
  refine h.withPool hp (fun c x hx => ⟨f c x, by rw [hget, hx]; rfl, (hf c x hx).1⟩) (fun c y hy => ?_)
    fun c y hy => ?_
  all_goals
    rw [hget, Option.map_eq_some_iff] at hy
    obtain ⟨x, hx, rfl⟩ := hy
  · exact (hf c x hx).2.1
  · exact (hf c x hx).2.2

/-- A block changed in place, but for its use and its readers. -/
theorem modifyBlock (h : Inv w due) {f : SharedBufferBlock → SharedBufferBlock}
    (hp : (w.pool.modifyBlock b f).Inv) (hf : ∀ x, (f x).inUse = x.inUse ∧
      (f x).payloadSize = x.payloadSize ∧ (f x).control.readerState = x.control.readerState) :
    Inv (w.withPool (w.pool.modifyBlock b f)) due := by
  refine h.mapPool hp (fun c x => if c = b then f x else x) (fun c => Pool.get_modifyBlock f) fun c x hx => ?_
  rw [Pool.outside_modifyBlock, ← h.leased hx, h.owned hx]
  split
  · exact ⟨(hf x).2.1, by rw [(hf x).1], by rw [(hf x).2.2]⟩
  · exact ⟨rfl, rfl, rfl⟩

/-- A lease that has been taken out of its object is given back. -/
theorem releaseReader (h : Inv w (.releaseReader b :: due)) :
    Inv (w.withPool (w.pool.modifyControl b (·.releaseReader))) due := by
  have hleased : ∀ c x, w.pool.allBlocks[c]? = some x → x.control.readerState.toNat =
      w.pool.outside c + w.leases c + due.count (.releaseReader c) + if b = c then 1 else 0 :=
    fun c x hx => by rw [h.leased hx, List.count_cons]; simp; omega
  have hstored : ∀ x, w.pool.allBlocks[b]? = some x →
      Stored (x.withControl x.control.releaseReader) (w.pool.outside b) ∧
        x.control.releaseReader.readerState.toNat + 1 = x.control.readerState.toNat := fun x hx => by
    have hl := hleased b x hx
    rw [if_pos rfl] at hl
    exact (h.pool.stored hx).leave (by omega)
  refine h.mapPool (h.pool.modifyBlock fun x hx => ⟨(hstored x hx).1, rfl, rfl⟩)
    (fun c x => if c = b then x.withControl x.control.releaseReader else x)
    (fun c => Pool.get_modifyControl _) fun c x hx => ?_
  have ho := h.owned hx
  have hl := hleased c x hx
  rw [List.count_cons_of_ne (by simp)] at ho
  rw [Pool.outside_modifyControl]
  by_cases hc : c = b
  · subst hc
    have hn := (hstored x hx).2
    rw [if_pos rfl] at hl ⊢
    exact ⟨rfl, ho, by simp only [SharedBufferBlock.withControl]; omega⟩
  · rw [if_neg (Ne.symm hc)] at hl
    rw [if_neg hc]
    exact ⟨rfl, ho, by omega⟩

/-- A block whose buffer is gone returns to the pool. -/
theorem poolFree (h : Inv w (.poolFree b :: due)) : Inv (w.withPool (w.pool.free (some b))) due := by
  refine h.mapPool (h.pool.free (some b)) (fun c x => if c = b then { x with inUse := false } else x)
    (fun c => Pool.get_free) fun c x hx => ?_
  have ho := h.owned hx
  have hl := h.leased hx
  rw [List.count_cons_of_ne (by simp)] at hl
  rw [List.count_cons] at ho
  rw [Pool.outside_free]
  by_cases hc : c = b
  · subst hc
    rw [if_pos rfl]
    simp only [beq_self_eq_true, if_true] at ho
    split at ho
    · exact ⟨rfl, by simp only [Bool.false_eq_true, if_false]; omega, hl⟩
    · omega
  · rw [if_neg hc]
    refine ⟨rfl, ?_, hl⟩
    rw [← ho]; simp [Ne.symm hc]

theorem effects (h : Inv w (l ++ due)) : Inv (w.effects l) due := by
  induction l generalizing w with
  | nil => exact h
  | cons e l ih =>
    refine ih (w := w.withPool (w.pool.effect e)) ?_
    cases e with
    | releaseReader b => exact h.releaseReader
    | poolFree b => exact h.poolFree
    | custom n =>
      refine h.withPool h.pool (fun c x hx => ⟨x, hx, rfl⟩) (fun c x hx => ?_) fun c x hx => ?_
      · rw [← h.owned hx, List.cons_append, List.count_cons_of_ne (by simp)]
      · refine (h.leased hx).trans ?_
        rw [List.cons_append, List.count_cons_of_ne (by simp)]; rfl

/-- An access from outside. -/
theorem outside (h : Inv w due) (act : Outside) : Inv (w.withPool (w.pool.outsideStep act)) due := by
  refine h.mapPool h.pool.outsideStep
    (fun c x => if c = act.block then (act.on x (w.pool.outside c)).1 else x)
    (fun c => Pool.get_outsideStep) fun c x hx => ?_
  obtain ⟨control, he⟩ := act.on_eq x (w.pool.outside c)
  have hl := h.leased hx
  have hon := (@Stored.on _ _ act (h.pool.stored hx)).2
  rw [Pool.outside_outsideStep hx, h.owned hx]
  split
  · rw [he] at hon ⊢
    exact ⟨rfl, rfl, by omega⟩
  · exact ⟨rfl, rfl, hl⟩

end Inv

/-- What `make_lease` can do. -/
theorem World.makeLease_ok {control lease : Option Nat} (hm : w.makeLease control = (w', .ok lease)) :
    lease = control ∧ (control = none ∧ w' = w ∨ ∃ b block, control = some b ∧
      w.pool.allBlocks[b]? = some block ∧ readerRefused block.control.readerState = false ∧
      w' = w.withPool (w.pool.modifyControl b fun _ =>
        { block.control with readerState := block.control.readerState + 1#32 })) := by
  unfold World.makeLease at hm
  cases control with
  | none => cases hm; exact ⟨rfl, .inl ⟨rfl, rfl⟩⟩
  | some b =>
    dsimp only at hm
    split at hm
    · rename_i header hh
      cases hm
      obtain ⟨block, hb, ht⟩ := Option.bind_eq_some_iff.1 hh
      unfold SharedBufferControlHeader.tryAcquireReader at ht
      split at ht
      · cases ht
      · rename_i hr
        cases ht
        exact ⟨rfl, .inr ⟨b, block, rfl, hb, by simpa using hr, rfl⟩⟩
    · cases hm

theorem World.makeLease_error {control : Option Nat} {x : Exn} (hm : w.makeLease control = (w', .error x)) :
    w' = w ∧ ∃ b, control = some b ∧
      ∀ block, w.pool.allBlocks[b]? = some block → readerRefused block.control.readerState = true := by
  unfold World.makeLease at hm
  cases control with
  | none => cases hm
  | some b =>
    dsimp only at hm
    split at hm
    · cases hm
    · rename_i hh
      cases hm
      refine ⟨rfl, b, rfl, fun block hb => ?_⟩
      by_contra hr
      rw [hb] at hh
      simp [SharedBufferControlHeader.tryAcquireReader, hr] at hh

/-- A lease taken is one due, until an object holds it. -/
theorem Inv.makeLease (h : Inv w due) {control lease : Option Nat} (hm : w.makeLease control = (w', .ok lease)) :
    Inv w' (leaseEffects lease ++ due) := by
  obtain ⟨rfl, ⟨rfl, rfl⟩ | ⟨b, block, rfl, hb, hr, rfl⟩⟩ := World.makeLease_ok hm
  · exact h
  have henter := (h.pool.stored hb).enter hr
  refine h.mapPool (h.pool.modifyBlock fun x hx => ?_)
    (fun c x => if c = b then
      x.withControl { block.control with readerState := block.control.readerState + 1#32 } else x)
    (fun c => Pool.get_modifyControl _) fun c x hx => ?_
  · rw [hb] at hx; cases hx
    exact ⟨henter.1, rfl, rfl⟩
  · have hl := h.leased hx
    rw [Pool.outside_modifyControl, leaseEffects_some, List.singleton_append,
      List.count_cons_of_ne (by simp), List.count_cons, h.owned hx]
    by_cases hc : c = b
    · subst hc
      rw [hb] at hx; cases hx
      rw [if_pos rfl]
      refine ⟨rfl, rfl, ?_⟩
      simp only [SharedBufferBlock.withControl, henter.2, beq_self_eq_true, if_true]; omega
    · rw [if_neg hc, hl]
      exact ⟨rfl, rfl, by simp [Ne.symm hc]⟩

end

end MemfdBuffer.Proc
