import MemfdBuffer.Python.World
import MemfdBuffer.Proc.Turn

/-!
# Who keeps what alive

Every buffer of the process belongs to one `Buffer` object, every read handle to one read access and every write handle
to one open scope, whose object is alive; and an object is alive as long as the program or an access refers to it.
-/

namespace MemfdBuffer

namespace PyWrite
variable {s s' : PyWrite} {op : PyOp} {r : Except PyExn PyValue} {v : Nat}

/-- The access as it was, but for its exports. -/
def SameAccess (s s' : PyWrite) : Prop := s'.native = { s.native with exports := s'.native.exports }

/-- A close that has given up handle and owner. -/
structure Closing (s s' : PyWrite) : Prop where
  before : s.native.closed = false
  closed : s'.native.closed = true
  handle : s'.native.handle = {}
  owner : s'.native.owner = none
  byteCount : s'.native.byteCount = s.native.byteCount

theorem enter_access (e : MemoryviewEnv) : s.SameAccess (s.enter e).1 := by
  unfold enter
  split
  · rfl
  · split
    · rfl
    · unfold memoryview
      cases s.native.bufferInfo with
      | error x => rfl
      | ok info =>
        cases e with
        | ok => rfl
        | getbufferFails => rfl
        | retainFails => rfl
        | viewFails => simp [SameAccess, releasebuffer, NativeWriteAccess.addExport, NativeWriteAccess.removeExport]

theorem Inv.close_access (h : Inv s) : s.SameAccess s.close.1 ∨ s.Closing s.close.1 := by
  by_cases hn : s.access.native = true
  · obtain ⟨s₁, -, -, -, -, hnat, ⟨-, hc⟩ | ⟨-, hc⟩⟩ := h.close_cases hn
    · rw [hc]
      exact .inl hnat
    · rw [hc]
      refine .inr ⟨by rw [h.closed, hn]; rfl, rfl, rfl, rfl, ?_⟩
      show s₁.native.byteCount = _
      rw [hnat]
  · rw [PyWrite.close, if_pos (by simpa using hn)]
    exact .inl rfl

/-- A call leaves handle and owner alone, or closes the access; a call on a view does not close it. -/
theorem Inv.exec_access (h : Inv s) (he : s.exec op = some (s', r)) :
    s.SameAccess s' ∨ s.Closing s' ∧ Python.onView op = false := by
  cases op with
  | enter e =>
    have hsame := s.enter_access e
    simp only [PyWrite.exec, Option.some.injEq] at he
    rw [he] at hsame
    exact .inl hsame
  | derive v =>
    left
    unfold SameAccess
    rw [(h.derive he).2.1]
  | release v =>
    simp only [PyWrite.exec] at he
    split at he
    · cases he
      exact .inl (h.releaseView v).native
    · cases he
  | close =>
    have hclose := h.close_access
    simp only [PyWrite.exec, Option.some.injEq] at he
    rw [he] at hclose
    exact hclose.imp id fun hc => ⟨hc, rfl⟩
  | exit =>
    rw [exec_exit] at he
    cases he
    exact h.close_access.imp id fun hc => ⟨hc, rfl⟩
  | closed =>
    cases he
    exact .inl rfl
  | byteCount =>
    simp only [PyWrite.exec] at he
    split at he <;> cases he <;> exact .inl rfl

/-- Every view shows the whole buffer. -/
def Sized (s : PyWrite) : Prop := ∀ view ∈ s.views, view.byteCount = s.native.byteCount

theorem Sized.releaseView (h : Sized s) (v : Nat) : Sized (s.releaseView v) ∧
    (s.releaseView v).native.byteCount = s.native.byteCount := by
  unfold PyWrite.releaseView
  split
  · exact ⟨h, rfl⟩
  · rename_i view hv
    split
    · exact ⟨h, rfl⟩
    · have hset : ∀ y ∈ s.views.set v { view with released := true }, y.byteCount = s.native.byteCount := by
        intro y hy
        rcases List.mem_or_eq_of_mem_set hy with hy | rfl
        · exact h y hy
        · exact h view (List.mem_of_getElem? hv)
      dsimp only
      split
      · exact ⟨hset, rfl⟩
      · have hcount : s.native.removeExport.byteCount = s.native.byteCount := by
          unfold NativeWriteAccess.removeExport
          split <;> rfl
        exact ⟨fun y hy => (hset y hy).trans hcount.symm, hcount⟩

theorem Sized.nativeClose (h : Sized s) : Sized s.nativeClose.1 := by
  unfold PyWrite.nativeClose
  split
  · exact h
  · split <;> exact h

theorem Sized.close (h : Sized s) : Sized s.close.1 := by
  unfold PyWrite.close
  split
  · exact h
  · have hview : ∀ v, Sized (s.releaseView v) := fun v => (h.releaseView v).1
    dsimp only
    cases s.access.view with
    | none =>
      have hclose := h.nativeClose
      dsimp only
      split <;> rename_i hq <;> rw [hq] at hclose <;> exact hclose
    | some v =>
      have hclose := (hview v).nativeClose
      dsimp only
      split <;> rename_i hq <;> rw [hq] at hclose <;> exact hclose

theorem Sized.memoryview (h : Sized s) (e : MemoryviewEnv) : Sized (s.memoryview e).1 := by
  unfold PyWrite.memoryview NativeWriteAccess.bufferInfo
  cases s.native.closed with
  | true => exact h
  | false =>
    cases e with
    | ok =>
      intro y hy
      rcases List.mem_append.1 hy with hy | hy
      · exact h y hy
      · rw [List.mem_singleton.1 hy]
        rfl
    | getbufferFails => exact h
    | retainFails => exact h
    | viewFails =>
      intro y hy
      refine (h y hy).trans ?_
      simp [releasebuffer, NativeWriteAccess.addExport, NativeWriteAccess.removeExport]

theorem Sized.exec (h : Sized s) (he : s.exec op = some (s', r)) : Sized s' := by
  cases op with
  | enter e =>
    simp only [PyWrite.exec, Option.some.injEq] at he
    rw [show s' = (s.enter e).1 by rw [he]]
    unfold enter
    split
    · exact h
    · split
      · exact h
      · have hview := h.memoryview e
        split <;> rename_i hq <;> rw [hq] at hview <;> exact hview
  | derive v =>
    obtain ⟨view, hv, hd⟩ := Option.bind_eq_some_iff.1 he
    split at hd
    · cases hd
      exact h
    · cases hd
      intro y hy
      rcases List.mem_append.1 hy with hy | hy
      · exact h y hy
      · rw [List.mem_singleton.1 hy]
        exact h view (List.mem_of_getElem? hv)
  | release v =>
    simp only [PyWrite.exec] at he
    split at he
    · cases he
      exact (h.releaseView v).1
    · cases he
  | close =>
    have hclose := h.close
    simp only [PyWrite.exec, Option.some.injEq] at he
    rw [he] at hclose
    exact hclose
  | exit =>
    rw [exec_exit] at he
    cases he
    exact h.close
  | closed =>
    cases he
    exact h
  | byteCount =>
    simp only [PyWrite.exec] at he
    split at he <;> cases he <;> exact h

end PyWrite

namespace Python

open Proc

/-- Object `o` is alive and has the buffer in slot `i`. -/
def System.Backs (s : System) (o i : Nat) : Prop := ∃ b, s.buffer o = some b ∧ b.content = .shared i

/-- A buffer of bytes that has its block. -/
structure Whole (t : Buf) : Prop where
  elem : t.elem = 1
  size : t.shared.size = t.impl.size
  block : t.shared.dataPtr ≠ none

/-- The handle of a read access is on block `b` of its size, which its object keeps or the handle itself. -/
structure ReadAt (s : System) (a : NativeReadAccess) (r : ReadHandle) (b : Nat) : Prop where
  owner : (s.buffer a.owner).isSome
  handle : s.world.read a.handle = some r
  dataPtr : r.dataPtr = some b
  size : ∃ x, s.world.pool.allBlocks[b]? = some x ∧ x.payloadSize = a.byteCount
  held : (∃ i t, s.Backs a.owner i ∧ s.world.buf i = some t ∧ t.shared.dataPtr = some b) ∨
    (∀ i, ¬ s.Backs a.owner i) ∧ ∃ impl, r.promotedBuffer = some impl ∧ impl.sharedBuffer.dataPtr = some b

/-- The handle of an open scope is on block `b` of the buffer in slot `i`, with its state `n`. -/
structure WriteAt (s : System) (c : WriteScope) (o i n b : Nat) : Prop where
  owner : c.py.native.owner = some o
  backs : s.Backs o i
  handle : s.world.write c.handle = some c.py.native.handle
  dataPtr : c.py.native.handle.dataPtr = some b
  state : c.py.native.handle.state = some n
  buf : ∃ t, s.world.buf i = some t ∧ t.shared.dataPtr = some b ∧ t.shared.handleState = some n
  size : ∃ x, s.world.pool.allBlocks[b]? = some x ∧ x.payloadSize = c.py.native.byteCount

/-- What a scope is by itself. -/
structure WriteScope.Sound (c : WriteScope) : Prop where
  reach : PyWrite.Reachable c.py
  sized : c.py.Sized
  dropped : c.dropped = true → c.py.native.closed = false ∧ c.py.native.exports ≠ 0
  owner : c.py.native.closed = true → c.py.native.owner = none

structure Buffers (s : System) : Prop where
  backs {o i : Nat} : s.Backs o i → ∃ t, s.world.buf i = some t ∧ Whole t
  unique {o p i : Nat} : s.Backs o i → s.Backs p i → o = p
  covered {i : Nat} {t : Buf} : s.world.buf i = some t → ∃ o, s.Backs o i

structure Reads (s : System) : Prop where
  at_ {k : Nat} {a : NativeReadAccess} : s.access k = some a → 0 < a.views ∧ ∃ r b, ReadAt s a r b
  unique {k l : Nat} {a a' : NativeReadAccess} : s.access k = some a → s.access l = some a' →
    a.handle = a'.handle → k = l
  covered {j : Nat} {r : ReadHandle} : s.world.read j = some r → ∃ k a, s.access k = some a ∧ a.handle = j

structure Writes (s : System) : Prop where
  sound {k : Nat} {c : WriteScope} : s.scope k = some c → c.Sound
  at_ {k : Nat} {c : WriteScope} : s.scope k = some c → c.py.native.closed = false → ∃ o i n b, WriteAt s c o i n b
  unique {k l : Nat} {c c' : WriteScope} : s.scope k = some c → s.scope l = some c' → c.py.native.closed = false →
    c'.py.native.closed = false → c.handle = c'.handle → k = l
  covered {l : Nat} {h : WriteHandle} : s.world.write l = some h →
    ∃ k c, s.scope k = some c ∧ c.py.native.closed = false ∧ c.handle = l

structure Core (s : System) : Prop where
  reach : Proc.Reachable s.world
  homed : Homed s.world
  buffers : Buffers s
  reads : Reads s
  writes : Writes s

/-- Object `o` is not alive for nothing. -/
def System.Kept (s : System) (o : Nat) : Prop := ∀ b, s.buffer o = some b → 0 < b.refs ∨ s.owned o = true

structure Inv (s : System) : Prop extends Core s where
  kept (o : Nat) : s.Kept o

variable {T : Touching} {s s' : System} {o p i k l n b : Nat} {a : NativeReadAccess} {c : WriteScope} {r : ReadHandle}
  {w' : World} {out : Out}

/-- Object `o` has what it had. -/
def Stays (T : Touching) (s s' : System) (o : Nat) : Prop := ∀ x, s.buffer o = some x →
  ∃ y, s'.buffer o = some y ∧ y.content = x.content ∧ ∀ i, x.content = .shared i → ¬ T.buf i

theorem Stays.backs (h : Stays T s s' o) (hb : s.Backs o i) : s'.Backs o i ∧ ¬ T.buf i := by
  obtain ⟨x, hx, hi⟩ := hb
  obtain ⟨y, hy, hcontent, hT⟩ := h x hx
  exact ⟨⟨y, hy, hcontent.trans hi⟩, hT i hi⟩

theorem ReadAt.turn (h : ReadAt s a r b) (ht : Turn T s.world s'.world) (ho : Stays T s s' a.owner)
    (hT : ¬ T.read a.handle) : ReadAt s' a r b := by
  obtain ⟨x, hx⟩ := Option.isSome_iff_exists.1 h.owner
  obtain ⟨y, hy, -⟩ := ho x hx
  refine ⟨by rw [hy]; rfl, (ht.read _ hT).trans h.handle, h.dataPtr, ?_, ?_⟩
  · obtain ⟨x, hx, hsize⟩ := h.size
    obtain ⟨y, hy, hsize'⟩ := ht.block hx
    exact ⟨y, hy, hsize'.trans hsize⟩
  · rcases h.held with ⟨i, t, hb, hi, hptr⟩ | ⟨hno, himpl⟩
    · obtain ⟨hb', hT'⟩ := ho.backs hb
      obtain ⟨t', ht', hk⟩ := ht.buf hi hT'
      exact .inl ⟨i, t', hb', ht', hk.dataPtr.trans hptr⟩
    · refine .inr ⟨?_, himpl⟩
      rintro i ⟨z, hz, hi⟩
      obtain ⟨y', hy', hcontent, -⟩ := ho x hx
      cases hz.symm.trans hy'
      exact hno i ⟨x, hx, hcontent.symm.trans hi⟩

theorem WriteAt.turn (h : WriteAt s c o i n b) (ht : Turn T s.world s'.world) (ho : Stays T s s' o)
    (hT : ¬ T.write c.handle) : WriteAt s' c o i n b := by
  obtain ⟨hb, hT'⟩ := ho.backs h.backs
  refine ⟨h.owner, hb, (ht.write _ hT).trans h.handle, h.dataPtr, h.state, ?_, ?_⟩
  · obtain ⟨t, hi, hptr, hn⟩ := h.buf
    obtain ⟨t', ht', hk⟩ := ht.buf hi hT'
    refine ⟨t', ht', hk.dataPtr.trans hptr, ?_⟩
    rcases hk.state with hstate | ⟨hnone, -⟩
    · exact hstate.trans hn
    · rw [hn] at hnone
      cases hnone
  · obtain ⟨x, hx, hsize⟩ := h.size
    obtain ⟨y, hy, hsize'⟩ := ht.block hx
    exact ⟨y, hy, hsize'.trans hsize⟩

/-! ### Tables -/

/-- One object is made, destroyed or counted anew, and with it the buffers that the call touches. -/
theorem Buffers.update {x : Option BufferObject} (h : Buffers s) (ht : Turn T s.world s'.world)
    (hs' : ∀ p, s'.buffer p = if p = o then x else s.buffer p) (hT : ∀ p i, p ≠ o → s.Backs p i → ¬ T.buf i)
    (hnew : ∀ y i, x = some y → y.content = .shared i →
      (∃ t, s'.world.buf i = some t ∧ Whole t) ∧ ∀ p, p ≠ o → ¬ s.Backs p i)
    (hcov : ∀ i t, s'.world.buf i = some t → T.buf i ∨ s.Backs o i → ∃ y, x = some y ∧ y.content = .shared i) :
    Buffers s' := by
  have hback : ∀ p i, s'.Backs p i ↔ if p = o then ∃ y, x = some y ∧ y.content = .shared i else s.Backs p i := by
    intro p i
    unfold System.Backs
    rw [hs']
    split <;> rfl
  refine ⟨fun {p i} hb => ?_, fun {p q i} hp hq => ?_, fun {i t} hi => ?_⟩
  · rw [hback] at hb
    split at hb
    · obtain ⟨y, hy, hi⟩ := hb
      exact (hnew y i hy hi).1
    · rename_i hpo
      obtain ⟨t, hi, hw⟩ := h.backs hb
      obtain ⟨t', hi', hk⟩ := ht.buf hi (hT p i hpo hb)
      exact ⟨t', hi', hk.elem.trans hw.elem, hk.bytes.trans (hw.size.trans hk.size.symm),
        by rw [hk.dataPtr]; exact hw.block⟩
  · rw [hback] at hp hq
    split at hp <;> split at hq
    · rename_i hpo hqo
      rw [hpo, hqo]
    · rename_i hqo
      obtain ⟨y, hy, hi⟩ := hp
      exact absurd hq ((hnew y i hy hi).2 q hqo)
    · rename_i hpo _
      obtain ⟨y, hy, hi⟩ := hq
      exact absurd hp ((hnew y i hy hi).2 p hpo)
    · exact h.unique hp hq
  · by_cases hthis : T.buf i ∨ s.Backs o i
    · obtain ⟨y, hy, hc⟩ := hcov i t hi hthis
      exact ⟨o, (hback o i).2 (by rw [if_pos rfl]; exact ⟨y, hy, hc⟩)⟩
    · rw [not_or] at hthis
      have hold : s.world.buf i ≠ none := fun hnone => by
        rw [ht.gone hnone hthis.1] at hi
        cases hi
      obtain ⟨t', ht'⟩ := Option.ne_none_iff_exists'.1 hold
      obtain ⟨p, hp⟩ := h.covered ht'
      refine ⟨p, (hback p i).2 ?_⟩
      rw [if_neg]
      · exact hp
      · rintro rfl
        exact hthis.2 hp

/-- One access is made, destroyed or changed, and with it the handles that the call touches. -/
theorem Reads.update {x : Option NativeReadAccess} (h : Reads s) (ht : Turn T s.world s'.world)
    (hs' : ∀ l, s'.access l = if l = k then x else s.access l)
    (hkeep : ∀ l a, l ≠ k → s.access l = some a → Stays T s s' a.owner ∧ ¬ T.read a.handle)
    (hnew : ∀ a, x = some a → (0 < a.views ∧ ∃ r b, ReadAt s' a r b) ∧
      ∀ l a', l ≠ k → s.access l = some a' → a'.handle ≠ a.handle)
    (hcov : ∀ j r, s'.world.read j = some r → (T.read j ∨ ∃ a, s.access k = some a ∧ a.handle = j) →
      ∃ a, x = some a ∧ a.handle = j) : Reads s' := by
  refine ⟨fun {l a} hl => ?_, fun {l m a a'} hl hm heq => ?_, fun {j r} hr => ?_⟩
  · rw [hs'] at hl
    split at hl
    · exact (hnew a hl).1
    · rename_i hlk
      obtain ⟨hviews, r, b, hat⟩ := h.at_ hl
      obtain ⟨ho, hT⟩ := hkeep l a hlk hl
      exact ⟨hviews, r, b, hat.turn ht ho hT⟩
  · rw [hs'] at hl hm
    split at hl <;> split at hm
    · rename_i hlk hmk
      rw [hlk, hmk]
    · rename_i hmk
      exact absurd heq.symm ((hnew a hl).2 m a' hmk hm)
    · rename_i hlk _
      exact absurd heq ((hnew a' hm).2 l a hlk hl)
    · exact h.unique hl hm heq
  · by_cases hthis : T.read j ∨ ∃ a, s.access k = some a ∧ a.handle = j
    · obtain ⟨a, ha, hj⟩ := hcov j r hr hthis
      exact ⟨k, a, (hs' k).trans ((if_pos rfl).trans ha), hj⟩
    · rw [not_or] at hthis
      rw [ht.read j hthis.1] at hr
      obtain ⟨l, a, hl, hj⟩ := h.covered hr
      refine ⟨l, a, (hs' l).trans ((if_neg ?_).trans hl), hj⟩
      rintro rfl
      exact hthis.2 ⟨a, hl, hj⟩

/-- One scope is made, ended or called, and with it the handles that the call touches. -/
theorem Writes.update {x : Option WriteScope} (h : Writes s) (ht : Turn T s.world s'.world)
    (hs' : ∀ l, s'.scope l = if l = k then x else s.scope l)
    (hkeep : ∀ l c o, l ≠ k → s.scope l = some c → c.py.native.closed = false → c.py.native.owner = some o →
      Stays T s s' o ∧ ¬ T.write c.handle)
    (hnew : ∀ c, x = some c → c.Sound ∧ (c.py.native.closed = false → (∃ o i n b, WriteAt s' c o i n b) ∧
      ∀ l c', l ≠ k → s.scope l = some c' → c'.py.native.closed = false → c'.handle ≠ c.handle))
    (hcov : ∀ l h, s'.world.write l = some h →
      (T.write l ∨ ∃ c, s.scope k = some c ∧ c.py.native.closed = false ∧ c.handle = l) →
      ∃ c, x = some c ∧ c.py.native.closed = false ∧ c.handle = l) : Writes s' := by
  refine ⟨fun {l c} hl => ?_, fun {l c} hl hopen => ?_, fun {l m c c'} hl hm hopen hopen' heq => ?_, fun {l y} hy => ?_⟩
  · rw [hs'] at hl
    split at hl
    · exact (hnew c hl).1
    · exact h.sound hl
  · rw [hs'] at hl
    split at hl
    · exact ((hnew c hl).2 hopen).1
    · rename_i hlk
      obtain ⟨o, i, n, b, hat⟩ := h.at_ hl hopen
      obtain ⟨ho, hT⟩ := hkeep l c o hlk hl hopen hat.owner
      exact ⟨o, i, n, b, hat.turn ht ho hT⟩
  · rw [hs'] at hl hm
    split at hl <;> split at hm
    · rename_i hlk hmk
      rw [hlk, hmk]
    · rename_i hmk
      exact absurd heq.symm (((hnew c hl).2 hopen).2 m c' hmk hm hopen')
    · rename_i hlk _
      exact absurd heq (((hnew c' hm).2 hopen').2 l c hlk hl hopen)
    · exact h.unique hl hm hopen hopen' heq
  · by_cases hthis : T.write l ∨ ∃ c, s.scope k = some c ∧ c.py.native.closed = false ∧ c.handle = l
    · obtain ⟨c, hc, hopen, hj⟩ := hcov l y hy hthis
      exact ⟨k, c, (hs' k).trans ((if_pos rfl).trans hc), hopen, hj⟩
    · rw [not_or] at hthis
      rw [ht.write l hthis.1] at hy
      obtain ⟨m, c, hm, hopen, hj⟩ := h.covered hy
      refine ⟨m, c, (hs' m).trans ((if_neg ?_).trans hm), hopen, hj⟩
      rintro rfl
      exact hthis.2 ⟨c, hm, hopen, hj⟩

end Python

end MemfdBuffer
