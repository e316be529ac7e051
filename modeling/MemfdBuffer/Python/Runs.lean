import MemfdBuffer.Python.Lifetimes
import MemfdBuffer.Proc.Progress

/-!
# What a Python program can rely on

Whatever a program does with buffers, accesses and views, in whatever order it lets go of them: no call meets a dead
buffer or handle, a write has its buffer to itself, and when everything is let go every block is back in the pool.
-/

namespace MemfdBuffer.Python

open Proc

variable {s s' : System} {o p i k l n b : Nat} {a : NativeReadAccess} {c : WriteScope} {r : ReadHandle}
  {x : BufferObject}
  {w' : World} {out : Out} {env : AllocEnv} {res : Except Raised Value} {T : Touching}

/-! ### Handles for the accesses -/

theorem Buffers.size (h : Buffers s) (hb : s.buffer o = some x) : ∃ n, s.size x = some n := by
  unfold System.size
  cases hc : x.content with
  | shared i =>
    obtain ⟨t, ht, -⟩ := h.backs ⟨x, hb, hc⟩
    exact ⟨t.impl.size, by simp [ht]⟩
  | other bytes => exact ⟨bytes.length, rfl⟩

theorem blockSize (hi : Proc.Inv s.world []) {t : Buf} (ht : s.world.buf i = some t) (hw : Whole t)
    (hp : t.shared.dataPtr = some b) : ∃ y, s.world.pool.allBlocks[b]? = some y ∧ y.payloadSize = t.impl.size := by
  obtain ⟨y, hy, hsize⟩ := (hi.buffers (.buf ht)).block hp
  exact ⟨y, hy, hsize.symm.trans hw.size⟩

/-- A read handle for the object, on as many bytes as the object has; or a throw. -/
theorem Core.fromInputBuffer (h : Core s) (hb : s.buffer o = some x) (hn : s.size x = some n) (env : AllocEnv) :
    ∃ w' out, s.fromInputBuffer x env = some ({ s with world := w' }, out) ∧ Proc.Reachable w' ∧ Homed w' ∧
      s.world.states.length ≤ w'.states.length ∧ ((∃ y, out = .threw y ∧ Turn {} s.world w') ∨
        out = .slot s.world.reads.length ∧ Turn { read := fun j => j = s.world.reads.length } s.world w' ∧
          ∃ r b, ReadAt { s with world := w' } { owner := o, handle := s.world.reads.length, byteCount := n } r b) := by
  have howner : ∀ w', (({ s with world := w' } : System).buffer o).isSome := fun w' => by
    show (s.buffer o).isSome
    rw [hb]
    rfl
  unfold System.size at hn
  unfold System.fromInputBuffer
  cases hc : x.content with
  | shared i =>
    rw [hc] at hn
    obtain ⟨t, ht, hw⟩ := h.buffers.backs ⟨x, hb, hc⟩
    obtain ⟨t', ht', rfl⟩ := Option.map_eq_some_iff.1 hn
    cases ht.symm.trans ht'
    obtain ⟨⟨w', out⟩, he⟩ : ∃ v, exec s.world (.fromInputBuffer i) = some v := by
      have htotal : ∃ v res, s.world.fromInputBuffer i = some (v, res) := by
        unfold World.fromInputBuffer
        rw [ht, Option.bind_eq_bind, Option.bind_some]
        split
        · exact ⟨_, _, rfl⟩
        · exact World.getReadHandle_total h.inv ht
      obtain ⟨v, res, hv⟩ := htotal
      simp only [exec, hv]
      exact ⟨_, rfl⟩
    obtain ⟨hreach, hhomed⟩ := h.world he rfl
    refine ⟨w', out, System.call_of he, hreach, hhomed, (exec_frame h.inv he).length_le, ?_⟩
    rcases turn_fromInputBuffer h.inv ht he with hthrew | ⟨hout, hturn, r, hr, hptr⟩
    · exact .inl hthrew
    · refine .inr ⟨hout, hturn, ?_⟩
      obtain ⟨b, hp⟩ := Option.ne_none_iff_exists'.1 hw.block
      obtain ⟨y, hy, hsize⟩ := blockSize h.inv ht hw hp
      obtain ⟨z, hz, hsize'⟩ := hturn.block hy
      obtain ⟨t', ht', hk⟩ := hturn.buf ht id
      exact ⟨r, b, howner w', hr, hptr.trans hp, ⟨z, hz, hsize'.trans hsize⟩,
        .inl ⟨i, t', ⟨x, hb, hc⟩, ht', hk.dataPtr.trans hp⟩⟩
  | other bytes =>
    rw [hc] at hn
    cases hn
    obtain ⟨⟨w', out⟩, he⟩ : ∃ v, exec s.world (.promote 1 bytes.length bytes env) = some v := by
      obtain ⟨v, res, hv⟩ : ∃ v res, s.world.promote 1 bytes.length bytes env = some (v, res) :=
        World.promote_total h.inv Nat.one_pos (Nat.mul_one bytes.length).symm
      simp only [exec, hv]
      exact ⟨_, by simp [guard]; rfl⟩
    obtain ⟨hreach, hhomed⟩ := h.world he rfl
    refine ⟨w', out, System.call_of he, hreach, hhomed, (exec_frame h.inv he).length_le, ?_⟩
    rcases turn_promote h.inv he with hthrew | ⟨hout, hturn, r, b, impl, hr, hptr, hpay, himpl, himplptr⟩
    · exact .inl hthrew
    · have hother : ∀ i, ¬ s.Backs o i := by
        rintro i ⟨z, hz, hi⟩
        cases hb.symm.trans hz
        cases hc.symm.trans hi
      refine .inr ⟨hout, hturn, r, b, howner w', hr, hptr, ?_, .inr ⟨hother, impl, himpl, himplptr.trans hptr⟩⟩
      obtain ⟨y, hy, hbytes⟩ := Option.map_eq_some_iff.1 hpay
      exact ⟨y, hy, by rw [← (hreach.inv.pool.stored hy).length, hbytes]⟩

/-- A write handle for the object; or a throw. -/
theorem Core.fromOutputBuffer (h : Core s) (hb : s.buffer o = some x) (hn : s.size x = some n) :
    ∃ w' out, s.fromOutputBuffer x = some ({ s with world := w' }, out) ∧ Proc.Reachable w' ∧ Homed w' ∧
      ((∃ y, out = .threw y ∧ Turn {} s.world w') ∨
        out = .slot s.world.writes.length ∧ Turn { write := fun l => l = s.world.writes.length } s.world w' ∧
          ∃ wh i m b, w'.write s.world.writes.length = some wh ∧ s.Backs o i ∧ wh.dataPtr = some b ∧ wh.state = some m ∧
            w'.InUse m ∧ (∃ t, w'.buf i = some t ∧ t.shared.dataPtr = some b ∧ t.shared.handleState = some m) ∧
            ∃ y, w'.pool.allBlocks[b]? = some y ∧ y.payloadSize = n) := by
  unfold System.size at hn
  unfold System.fromOutputBuffer
  cases hc : x.content with
  | shared i =>
    rw [hc] at hn
    obtain ⟨t, ht, hw⟩ := h.buffers.backs ⟨x, hb, hc⟩
    obtain ⟨t', ht', rfl⟩ := Option.map_eq_some_iff.1 hn
    cases ht.symm.trans ht'
    obtain ⟨⟨w', out⟩, he⟩ : ∃ v, exec s.world (.fromOutputBuffer i) = some v := by
      have htotal : ∃ v res, s.world.fromOutputBuffer i = some (v, res) := by
        unfold World.fromOutputBuffer
        rw [ht, Option.bind_eq_bind, Option.bind_some]
        split
        · exact ⟨_, _, rfl⟩
        · exact World.getWriteHandle_total h.inv ht
      obtain ⟨v, res, hv⟩ := htotal
      simp only [exec, hv]
      exact ⟨_, rfl⟩
    obtain ⟨hreach, hhomed⟩ := h.world he rfl
    refine ⟨w', out, System.call_of he, hreach, hhomed, ?_⟩
    rcases turn_fromOutputBuffer h.inv ht he with hthrew | ⟨hout, hturn, wh, m, t', hl, hptr, hm, hu, ht', hm'⟩
    · exact .inl hthrew
    · obtain ⟨b, hp⟩ := Option.ne_none_iff_exists'.1 hw.block
      obtain ⟨y, hy, hsize⟩ := blockSize h.inv ht hw hp
      obtain ⟨z, hz, hsize'⟩ := hturn.block hy
      obtain ⟨t₁, ht₁, hk⟩ := hturn.buf ht id
      cases ht'.symm.trans ht₁
      exact .inr ⟨hout, hturn, wh, i, m, b, hl, ⟨x, hb, hc⟩, hptr.trans hp, hm, hu, ⟨t', ht', hk.dataPtr.trans hp, hm'⟩,
        z, hz, hsize'.trans hsize⟩
  | other bytes =>
    dsimp only
    split <;> exact ⟨_, _, rfl, h.reach, h.homed, .inl ⟨_, rfl, .refl _⟩⟩

/-! ### The calls -/

theorem Init.inv (h : s.Init) : Inv s := by
  obtain ⟨hw, hb, hr, hc⟩ := h
  have hbuf : ∀ o, s.buffer o = none := fun o => by rw [System.buffer, hb]; rfl
  have hacc : ∀ k, s.access k = none := fun k => by rw [System.access, hr]; rfl
  have hscope : ∀ k, s.scope k = none := fun k => by rw [System.scope, hc]; rfl
  obtain ⟨euid, pid, metadata, hworld⟩ := id hw
  refine ⟨⟨.start hw, Init.homed hw, ⟨?_, ?_, ?_⟩, ⟨?_, ?_, ?_⟩, ⟨?_, ?_, ?_, ?_⟩⟩, ?_⟩
  · rintro o i ⟨x, hx, -⟩
    rw [hbuf] at hx
    cases hx
  · rintro o p i ⟨x, hx, -⟩
    rw [hbuf] at hx
    cases hx
  · intro i t hi
    rw [hworld] at hi
    cases hi
  · intro k a hk
    rw [hacc] at hk
    cases hk
  · intro k l a a' hk
    rw [hacc] at hk
    cases hk
  · intro j r hj
    rw [hworld] at hj
    cases hj
  · intro k c hk
    rw [hscope] at hk
    cases hk
  · intro k c hk
    rw [hscope] at hk
    cases hk
  · intro k l c c' hk
    rw [hscope] at hk
    cases hk
  · intro l wh hl
    rw [hworld] at hl
    cases hl
  · intro o x hx
    rw [hbuf] at hx
    cases hx

namespace Inv

/-- The process has changed, but no buffer and no handle. -/
theorem quiet (h : Inv s) (hreach : Proc.Reachable w') (hhomed : Homed w') (ht : Turn {} s.world w') :
    Inv { s with world := w' } := ⟨h.toCore.quiet hreach hhomed ht, h.kept⟩

theorem bare (h : Inv s) {op : Proc.Op} (hop : op.bare = true) (he : Proc.exec s.world op = some (w', out)) :
    Inv { s with world := w' } := by
  have ha : op.abandons s.world = false := by cases op <;> first | rfl | cases hop
  obtain ⟨hreach, hhomed⟩ := h.world he ha
  exact h.quiet hreach hhomed (turn_bare h.inv hop he)

/-- A new object, whose buffer is none of another. -/
theorem newBuffer (h : Inv s) (hreach : Proc.Reachable w') (hhomed : Homed w') (ht : Turn T s.world w')
    (hT : ∀ i, T.buf i → s.world.buf i = none) (hTr : ∀ j, ¬ T.read j) (hTw : ∀ l, ¬ T.write l) {y : BufferObject}
    (hrefs : 0 < y.refs)
    (hnew : ∀ i, y.content = .shared i → T.buf i ∧ ∃ t, w'.buf i = some t ∧ Whole t)
    (hcov : ∀ i, T.buf i → y.content = .shared i) : Inv { s with world := w', buffers := s.buffers ++ [some y] } := by
  have hbuf : ∀ p, ({ s with world := w', buffers := s.buffers ++ [some y] } : System).buffer p =
      if p = s.buffers.length then some y else s.buffer p := fun p => Slots.get_append
  have hnone : s.buffer s.buffers.length = none := Slots.get_length
  have hfar : ∀ {p i}, s.Backs p i → ¬ T.buf i := fun hp hi => by
    obtain ⟨t, ht, -⟩ := h.buffers.backs hp
    rw [hT _ hi] at ht
    cases ht
  have hstays : ∀ p, Stays T s { s with world := w', buffers := s.buffers ++ [some y] } p := by
    intro p x hx
    refine ⟨x, (hbuf p).trans ((if_neg ?_).trans hx), rfl, fun i hi => hfar ⟨x, hx, hi⟩⟩
    rintro rfl
    rw [hnone] at hx
    cases hx
  refine ⟨⟨hreach, hhomed, ?_, h.reads.frame ht rfl hTr fun _ _ _ => hstays _,
    h.writes.frame ht rfl hTw fun _ _ _ _ _ => hstays _⟩, fun p => ?_⟩
  · refine h.buffers.update ht hbuf (fun _ _ _ => hfar) (fun z i hz hi => ?_) fun i t hi hthis => ?_
    · cases hz
      obtain ⟨hTi, t, ht, hw⟩ := hnew i hi
      exact ⟨⟨t, ht, hw⟩, fun p _ hp => hfar hp hTi⟩
    · rcases hthis with hTi | ⟨x, hx, -⟩
      · exact ⟨y, rfl, hcov i hTi⟩
      · rw [hnone] at hx
        cases hx
  · intro z hz
    rw [hbuf] at hz
    split at hz
    · cases hz
      exact .inl hrefs
    · exact h.kept p z hz

theorem allocateBuffer (h : Inv s) (byteCount : Nat) (env : AllocEnv) (taken : Except Raised Unit) :
    ∃ s' res, s.allocateBuffer byteCount env taken = some (s', res) ∧ Inv s' := by
  unfold System.allocateBuffer
  split
  · exact ⟨_, _, rfl, h⟩
  rename_i hzero
  split
  · exact ⟨_, _, rfl, h⟩
  obtain ⟨⟨w', out⟩, he⟩ : ∃ v, Proc.exec s.world (.construct 1 byteCount env) = some v := by simp [exec, guard]
  rw [System.call_of he]
  obtain ⟨hreach, hhomed⟩ := h.world he rfl
  rcases turn_construct h.inv (Nat.pos_of_ne_zero hzero) he with
    ⟨x, rfl, ht⟩ | ⟨rfl, ht, t, b, hi, helem, himpl, hsize, hstate, hptr⟩
  · exact ⟨_, _, rfl, h.quiet hreach hhomed ht⟩
  have hnone : s.world.buf s.world.bufs.length = none := Slots.get_length
  cases taken with
  | ok u =>
    refine ⟨_, _, rfl, h.newBuffer hreach hhomed ht (fun i hi => by rw [hi]; exact hnone) (fun _ => id) (fun _ => id)
      Nat.one_pos (fun i hi => ?_) fun i hi => by rw [hi]⟩
    cases hi
    exact ⟨rfl, t, hi, helem, hsize.trans himpl.symm, by rw [hptr]; exact Option.some_ne_none b⟩
  | error x =>
    -- nobody has taken the buffer: it goes at once
    have he' : Proc.exec w' (.destroyBuf s.world.bufs.length) = some (w'.destroyBuf s.world.bufs.length, .done) := by
      simp [exec, hi]
    obtain ⟨ht', hgone⟩ := turn_destroyBuf he'
    have ha : (Proc.Op.destroyBuf s.world.bufs.length).abandons w' = false := by
      simp [Op.abandons, World.writing, World.stateOf, hi, hstate]
    have hstep : Proc.step w' (.destroyBuf s.world.bufs.length) = some (w'.destroyBuf s.world.bufs.length) := by
      rw [Proc.step, he', Option.map_some]
    have hturn := (ht.trans (exec_frame h.inv he).length_le ht').undone
      (fun i (hi : i = s.world.bufs.length) => by rw [hi]; exact ⟨hnone, hgone⟩) (fun _ hj => hj.elim) fun _ => id
    refine ⟨_, .error x, ?_, h.quiet (.next hreach trivial hstep) (hhomed.exec hreach.inv ha he') hturn⟩
    dsimp only [Option.bind_eq_bind, Option.bind_some]
    rw [System.call_of he']
    rfl

/-- The references to an object are counted anew. -/
theorem recount (h : Core s) (hb : s.buffer o = some x) (n : Nat) :
    Core (s.setBuffer o (some { x with refs := n })) := by
  have hbuf : ∀ p, (s.setBuffer o (some { x with refs := n })).buffer p =
      if p = o then some { x with refs := n } else s.buffer p := fun p => System.buffer_setBuffer hb
  have hstays : ∀ p, Stays {} s (s.setBuffer o (some { x with refs := n })) p := by
    intro p y hy
    by_cases hp : p = o
    · rw [hp, hb] at hy
      cases hy
      exact ⟨_, (hbuf p).trans (if_pos hp), rfl, fun _ _ => id⟩
    · exact ⟨y, (hbuf p).trans ((if_neg hp).trans hy), rfl, fun _ _ => id⟩
  refine ⟨h.reach, h.homed, ?_, h.reads.frame (.refl _) rfl (fun _ => id) fun _ _ _ => hstays _,
    h.writes.frame (.refl _) rfl (fun _ => id) fun _ _ _ _ _ => hstays _⟩
  refine h.buffers.update (.refl _) hbuf (fun _ _ _ _ => id) (fun y i hy hi => ?_) fun i t _ hthis => ?_
  · cases hy
    exact ⟨h.buffers.backs ⟨x, hb, hi⟩, fun p hp hp' => hp (h.buffers.unique hp' ⟨x, hb, hi⟩)⟩
  · rcases hthis with hT | ⟨y, hy, hi⟩
    · exact hT.elim
    · cases hb.symm.trans hy
      exact ⟨_, rfl, hi⟩

theorem kept_recount (h : Inv s) (hb : s.buffer o = some x) (n : Nat) (hp : p ≠ o) :
    (s.setBuffer o (some { x with refs := n })).Kept p := by
  refine (h.kept p).mono (fun y hy => ⟨y, ?_, id⟩) id
  rw [System.buffer_setBuffer hb, if_neg hp] at hy
  exact hy

theorem reference (h : Inv s) (hb : s.buffer o = some x) (hrefs : 0 < x.refs) :
    ∃ s' res, s.exec (.reference o) = some (s', res) ∧ Inv s' := by
  refine ⟨s.setBuffer o (some { x with refs := x.refs + 1 }), .ok .none, by simp [System.exec, hb, hrefs, guard],
    recount h.toCore hb _, fun p => ?_⟩
  by_cases hp : p = o
  · intro y hy
    rw [System.buffer_setBuffer hb, if_pos hp] at hy
    cases hy
    exact .inl (Nat.succ_pos _)
  · exact h.kept_recount hb _ hp

theorem unreference (h : Inv s) (hb : s.buffer o = some x) (hrefs : 0 < x.refs) :
    ∃ s' res, s.exec (.unreference o) = some (s', res) ∧ Inv s' := by
  have hcore := recount h.toCore hb (x.refs - 1)
  obtain ⟨s', hs'⟩ := Option.isSome_iff_exists.1 (hcore.collect_isSome o)
  refine ⟨s', .ok .none, by simp [System.exec, hb, hrefs, guard, hs'], hcore.collect (fun p hp => ?_) hs'⟩
  exact h.kept_recount hb _ hp

/-! ### Reads -/

theorem begin_isSome (h : Inv s) (hb : s.buffer o = some x) (e : AccessEnv) : ∃ res, s.begin x e = some res ∧
    ∀ n, res = .ok n → s.size x = some n := by
  obtain ⟨n, hn⟩ := h.buffers.size hb
  unfold System.begin
  split
  · exact ⟨_, rfl, fun n hn => by cases hn⟩
  · exact ⟨_, rfl, fun n hn => by cases hn⟩
  · rw [hn, Option.map_some]
    refine ⟨_, rfl, fun m hm => ?_⟩
    split at hm
    · cases hm
    · cases hm
      rfl

/-- A new access, whose handle is new. -/
theorem newRead (h : Inv s) (hreach : Proc.Reachable w') (hhomed : Homed w')
    (ht : Turn { read := fun j => j = s.world.reads.length } s.world w') (hhandle : a.handle = s.world.reads.length)
    (hviews : a.views = 1) (hat : ReadAt { s with world := w' } a r b) :
    Inv { s with world := w', reads := s.reads ++ [some a] } := by
  have hacc : ∀ l, ({ s with world := w', reads := s.reads ++ [some a] } : System).access l =
      if l = s.reads.length then some a else s.access l := fun l => Slots.get_append
  have hfar : ∀ {l a'}, s.access l = some a' → a'.handle ≠ s.world.reads.length := fun hl heq => by
    obtain ⟨-, r, b, hat⟩ := h.reads.at_ hl
    have hr := hat.handle
    rw [heq, World.read, Slots.get_length] at hr
    cases hr
  refine ⟨⟨hreach, hhomed, h.buffers.frame ht rfl fun _ => id, ?_,
    h.writes.frame ht rfl (fun _ => id) fun _ _ _ _ _ => .of_buffers rfl fun _ => id⟩, fun p => ?_⟩
  · refine h.reads.update ht hacc (fun l a' _ hl => ⟨.of_buffers rfl fun _ => id, hfar hl⟩) (fun a' ha' => ?_)
      fun j r _ hthis => ⟨a, rfl, ?_⟩
    · cases ha'
      exact ⟨⟨by rw [hviews]; exact Nat.one_pos, r, b, hat.owner, hat.handle, hat.dataPtr, hat.size, hat.held⟩,
        fun l a' _ hl => by rw [hhandle]; exact hfar hl⟩
    · rcases hthis with hj | ⟨a', ha', -⟩
      · exact hhandle.trans hj.symm
      · rw [System.access, Slots.get_length] at ha'
        cases ha'
  · refine (h.kept p).mono (fun y hy => ⟨y, hy, id⟩) fun ho => ?_
    rcases System.owned_iff.1 ho with ⟨l, a', hl, hown⟩ | ⟨l, c, hl, hown⟩
    · refine System.owned_iff.2 (.inl ⟨l, a', (hacc l).trans ((if_neg ?_).trans hl), hown⟩)
      rintro rfl
      rw [System.access, Slots.get_length] at hl
      cases hl
    · exact System.owned_iff.2 (.inr ⟨l, c, hl, hown⟩)

theorem readBuffer (h : Inv s) (hb : s.buffer o = some x) (hrefs : 0 < x.refs) (e : AccessEnv) :
    ∃ s' res, s.readBuffer o e = some (s', res) ∧ Inv s' := by
  unfold System.readBuffer
  obtain ⟨res, hres, hsize⟩ := h.begin_isSome hb e
  simp only [hb, hrefs, guard, hres, Option.bind_eq_bind, Option.bind_some, if_true, Option.pure_def]
  cases res with
  | error y => exact ⟨_, _, rfl, h⟩
  | ok n =>
    obtain ⟨w', out, hcall, hreach, hhomed, hlen, ⟨y, rfl, ht⟩ | ⟨rfl, ht, r, b, hat⟩⟩ :=
      h.fromInputBuffer hb (hsize n rfl) e.alloc
    · simp only [hcall, Option.bind_some]
      exact ⟨_, _, rfl, h.quiet hreach hhomed ht⟩
    simp only [hcall, Option.bind_some]
    split
    · exact ⟨_, _, rfl, h.newRead hreach hhomed ht rfl rfl hat⟩
    · -- no view: the handle goes again
      obtain ⟨w₁, he⟩ : ∃ w₁, Proc.exec w' (.destroyRead s.world.reads.length) = some (w₁, .done) :=
        ⟨w'.destroyRead s.world.reads.length,
          by simp [exec, show w'.read s.world.reads.length = some r from hat.handle]⟩
      have hstep : Proc.step w' (.destroyRead s.world.reads.length) = some w₁ := by rw [Proc.step, he, Option.map_some]
      obtain ⟨ht', hgone⟩ := turn_destroyRead he
      have hturn := (ht.trans hlen ht').undone (fun _ hi => hi.elim)
        (fun j (hj : j = s.world.reads.length) => by rw [hj, hgone]; exact Slots.get_length.symm) fun _ => id
      refine ⟨_, .error (.py .memoryError), ?_,
        h.quiet (.next hreach trivial hstep) (hhomed.exec hreach.inv rfl he) hturn⟩
      rw [System.call_of he]
      rfl

/-- The views of an access are counted anew. -/
theorem reviewed (h : Inv s) (hk : s.access k = some a) (hn : 0 < n) :
    Inv (s.setAccess k (some { a with views := n })) := by
  obtain ⟨-, r, b, hat⟩ := h.reads.at_ hk
  have hacc : ∀ l, (s.setAccess k (some { a with views := n })).access l =
      if l = k then some { a with views := n } else s.access l := fun l => System.access_setAccess hk
  refine ⟨⟨h.reach, h.homed, h.buffers.frame (.refl _) rfl fun _ => id, ?_,
    h.writes.frame (.refl _) rfl (fun _ => id) fun _ _ _ _ _ => .of_buffers rfl fun _ => id⟩, fun p => ?_⟩
  · refine h.reads.update (.refl _) hacc (fun _ _ _ _ => ⟨.of_buffers rfl fun _ => id, id⟩) (fun a' ha' => ?_)
      fun j r _ hthis => ⟨_, rfl, ?_⟩
    · cases ha'
      exact ⟨⟨hn, r, b, hat.owner, hat.handle, hat.dataPtr, hat.size, hat.held⟩,
        fun l a' hl hl' heq => hl (h.reads.unique hl' hk heq)⟩
    · rcases hthis with hT | ⟨a', ha', hj⟩
      · exact hT.elim
      · cases hk.symm.trans ha'
        exact hj
  · refine (h.kept p).mono (fun y hy => ⟨y, hy, id⟩) fun ho => ?_
    rcases System.owned_iff.1 ho with ⟨l, a', hl, hown⟩ | ⟨l, c, hl, hown⟩
    · by_cases hlk : l = k
      · rw [hlk, hk] at hl
        cases hl
        exact System.owned_iff.2 (.inl ⟨k, _, (hacc k).trans (if_pos rfl), hown⟩)
      · exact System.owned_iff.2 (.inl ⟨l, a', (hacc l).trans ((if_neg hlk).trans hl), hown⟩)
    · exact System.owned_iff.2 (.inr ⟨l, c, hl, hown⟩)

theorem deriveView (h : Inv s) (hk : s.access k = some a) :
    ∃ s' res, s.exec (.deriveView k) = some (s', res) ∧ Inv s' :=
  ⟨_, .ok .none, by simp only [System.exec, hk]; rfl, h.reviewed hk (Nat.succ_pos a.views)⟩

theorem releaseView (h : Inv s) (hk : s.access k = some a) :
    ∃ s' res, s.exec (.releaseView k) = some (s', res) ∧ Inv s' := by
  obtain ⟨hpos, -⟩ := h.reads.at_ hk
  by_cases hlast : a.views = 1
  · obtain ⟨hsome, hinv⟩ := h.destroyAccess hk
    obtain ⟨s', hs'⟩ := Option.isSome_iff_exists.1 hsome
    exact ⟨s', .ok .none, by simp [System.exec, hk, hlast, hs'], hinv s' hs'⟩
  · exact ⟨_, .ok .none, by simp only [System.exec, hk, Option.bind_eq_bind, Option.bind_some, if_neg hlast]; rfl,
      h.reviewed hk (n := a.views - 1) (by omega)⟩

/-- The bytes behind a view are there. -/
theorem shown (h : Inv s) (hk : s.access k = some a) :
    ∃ bytes, s.world.shown a.handle a.byteCount = some bytes ∧ bytes.length = a.byteCount := by
  obtain ⟨-, r, b, hat⟩ := h.reads.at_ hk
  obtain ⟨block, hb, hsize⟩ := hat.size
  have hlen := (h.inv.pool.stored hb).length
  have hpay : s.world.payload b = some block.payload := by
    unfold World.payload
    rw [hb, Option.map_some]
  refine ⟨_, World.shown_of hat.handle hat.dataPtr hpay (by omega), ?_⟩
  rw [List.length_take, Nat.min_eq_left (by omega)]

theorem load (h : Inv s) (hk : s.access k = some a) (offset : Nat) :
    ∃ res, s.exec (.load k offset) = some (s, res) := by
  obtain ⟨bytes, hbytes, hlen⟩ := h.shown hk
  by_cases hlt : offset < a.byteCount
  · have hbyte : bytes[offset]? = some bytes[offset] := List.getElem?_eq_getElem (hlen ▸ hlt)
    exact ⟨.ok (.byte bytes[offset]), by simp [System.exec, hk, hlt, hbytes, hbyte]⟩
  · exact ⟨.error .indexError, by simp [System.exec, hk, hlt]⟩

/-! ### Writes -/

/-- A new scope, whose handle is new. -/
theorem newScope (h : Inv s) (hreach : Proc.Reachable w') (hhomed : Homed w')
    (ht : Turn { write := fun l => l = s.world.writes.length } s.world w') (hhandle : c.handle = s.world.writes.length)
    (hsound : c.Sound) (hopen : c.py.native.closed = false) (hat : WriteAt { s with world := w' } c o i n b) :
    Inv { s with world := w', scopes := s.scopes ++ [some c] } := by
  have hscope : ∀ l, ({ s with world := w', scopes := s.scopes ++ [some c] } : System).scope l =
      if l = s.scopes.length then some c else s.scope l := fun l => Slots.get_append
  have hfar : ∀ {l c'}, s.scope l = some c' → c'.py.native.closed = false → c'.handle ≠ s.world.writes.length :=
    fun hl hopen heq => by
      obtain ⟨o, i, n, b, hat⟩ := h.writes.at_ hl hopen
      have hw := hat.handle
      rw [heq, World.write, Slots.get_length] at hw
      cases hw
  refine ⟨⟨hreach, hhomed, h.buffers.frame ht rfl fun _ => id,
    h.reads.frame ht rfl (fun _ => id) fun _ _ _ => .of_buffers rfl fun _ => id, ?_⟩, fun p => ?_⟩
  · refine h.writes.update ht hscope (fun l c' q _ hl hopen' _ => ⟨.of_buffers rfl fun _ => id, hfar hl hopen'⟩)
      (fun c' hc' => ?_) fun l y _ hthis => ⟨c, rfl, hopen, ?_⟩
    · cases hc'
      exact ⟨hsound, fun _ => ⟨⟨o, i, n, b, hat.owner, hat.backs, hat.handle, hat.dataPtr, hat.state,
        hat.buf, hat.size⟩,
        fun l c' _ hl hopen' => by rw [hhandle]; exact hfar hl hopen'⟩⟩
    · rcases hthis with hl | ⟨c', hc', -⟩
      · exact hhandle.trans hl.symm
      · rw [System.scope, Slots.get_length] at hc'
        cases hc'
  · refine (h.kept p).mono (fun y hy => ⟨y, hy, id⟩) fun ho => ?_
    rcases System.owned_iff.1 ho with ⟨l, a', hl, hown⟩ | ⟨l, c', hl, hown⟩
    · exact System.owned_iff.2 (.inl ⟨l, a', hl, hown⟩)
    · refine System.owned_iff.2 (.inr ⟨l, c', (hscope l).trans ((if_neg ?_).trans hl), hown⟩)
      rintro rfl
      rw [System.scope, Slots.get_length] at hl
      cases hl

theorem writeBuffer (h : Inv s) (hb : s.buffer o = some x) (hrefs : 0 < x.refs) (e : AccessEnv) :
    ∃ s' res, s.writeBuffer o e = some (s', res) ∧ Inv s' := by
  unfold System.writeBuffer
  obtain ⟨res, hres, hsize⟩ := h.begin_isSome hb e
  simp only [hb, hrefs, guard, hres, Option.bind_eq_bind, Option.bind_some, if_true, Option.pure_def]
  cases res with
  | error y => exact ⟨_, _, rfl, h⟩
  | ok m =>
    obtain ⟨w', out, hcall, hreach, hhomed, ⟨y, rfl, ht⟩
      | ⟨rfl, ht, wh, i, n, b, hl, hback, hptr, hn, ⟨st, hst, hu⟩, hbuf, hpay⟩⟩ :=
      h.fromOutputBuffer hb (hsize m rfl)
    · simp only [hcall, Option.bind_some]
      exact ⟨_, _, rfl, h.quiet hreach hhomed ht⟩
    simp only [hcall, Option.bind_some, hl]
    refine ⟨_, _, rfl, h.newScope hreach hhomed ht rfl ⟨.start ?_, ?_, ?_, ?_⟩ rfl ⟨rfl, hback, hl,
      hptr, hn, hbuf, hpay⟩⟩
    · exact ⟨⟨b, n, st, hptr, hn, hst, hu⟩, rfl, rfl, rfl, rfl, rfl⟩
    · intro view hview
      cases hview
    · intro hdropped
      cases hdropped
    · intro hclosed
      cases hclosed

/-- A scope that is called keeps its handle and its object. -/
theorem rescoped (h : Inv s) (hk : s.scope k = some c) {d : WriteScope} (hhandle : d.handle = c.handle)
    (hsame : c.py.SameAccess d.py) (hsound : d.Sound) : Inv (s.setScope k (some d)) := by
  have hscope : ∀ l, (s.setScope k (some d)).scope l = if l = k then some d else s.scope l :=
    fun l => System.scope_setScope hk
  have hclosed : d.py.native.closed = c.py.native.closed := by rw [hsame]
  have howner : d.py.native.owner = c.py.native.owner := by rw [hsame]
  refine ⟨⟨h.reach, h.homed, h.buffers.frame (.refl _) rfl fun _ => id,
    h.reads.frame (.refl _) rfl (fun _ => id) fun _ _ _ => .of_buffers rfl fun _ => id, ?_⟩, fun p => ?_⟩
  · refine h.writes.update (.refl _) hscope (fun _ _ _ _ _ _ _ => ⟨.of_buffers rfl fun _ => id, id⟩) (fun c' hc' => ?_)
      fun l y _ hthis => ⟨d, rfl, ?_⟩
    · cases hc'
      refine ⟨hsound, fun hopen => ?_⟩
      have hopen : c.py.native.closed = false := hclosed.symm.trans hopen
      obtain ⟨o, i, n, b, hat⟩ := h.writes.at_ hk hopen
      refine ⟨⟨o, i, n, b, howner.trans hat.owner, hat.backs, ?_, ?_, ?_, hat.buf, ?_⟩,
        fun l c' hl hl' hopen' heq => ?_⟩
      · rw [hhandle, hsame]
        exact hat.handle
      · rw [hsame]
        exact hat.dataPtr
      · rw [hsame]
        exact hat.state
      · rw [hsame]
        exact hat.size
      · exact hl (h.writes.unique hl' hk hopen' hopen (heq.trans hhandle))
    · rcases hthis with hT | ⟨c', hc', hopen, hl⟩
      · exact hT.elim
      · cases hk.symm.trans hc'
        exact ⟨hclosed.trans hopen, hhandle.trans hl⟩
  · refine (h.kept p).mono (fun y hy => ⟨y, hy, id⟩) fun ho => ?_
    rcases System.owned_iff.1 ho with ⟨l, a', hl, hown⟩ | ⟨l, c', hl, hown⟩
    · exact System.owned_iff.2 (.inl ⟨l, a', hl, hown⟩)
    · by_cases hlk : l = k
      · rw [hlk, hk] at hl
        cases hl
        exact System.owned_iff.2 (.inr ⟨k, d, (hscope k).trans (if_pos rfl), howner.trans hown⟩)
      · exact System.owned_iff.2 (.inr ⟨l, c', (hscope l).trans ((if_neg hlk).trans hl), hown⟩)

/-- What is left of a closed scope goes. -/
theorem unscoped (h : Inv s) (hk : s.scope k = some c) (hclosed : c.py.native.closed = true) :
    Inv (s.setScope k none) := by
  have hscope : ∀ l, (s.setScope k none).scope l = if l = k then none else s.scope l :=
    fun l => System.scope_setScope hk
  refine ⟨⟨h.reach, h.homed, h.buffers.frame (.refl _) rfl fun _ => id,
    h.reads.frame (.refl _) rfl (fun _ => id) fun _ _ _ => .of_buffers rfl fun _ => id, ?_⟩, fun p => ?_⟩
  · refine h.writes.update (.refl _) hscope (fun _ _ _ _ _ _ _ => ⟨.of_buffers rfl fun _ => id, id⟩)
      (fun c' hc' => by cases hc') fun l y _ hthis => ?_
    rcases hthis with hT | ⟨c', hc', hopen, -⟩
    · exact hT.elim
    · cases hk.symm.trans hc'
      rw [hclosed] at hopen
      cases hopen
  · refine (h.kept p).mono (fun y hy => ⟨y, hy, id⟩) fun ho => ?_
    rcases System.owned_iff.1 ho with ⟨l, a', hl, hown⟩ | ⟨l, c', hl, hown⟩
    · exact System.owned_iff.2 (.inl ⟨l, a', hl, hown⟩)
    · refine System.owned_iff.2 (.inr ⟨l, c', (hscope l).trans ((if_neg ?_).trans hl), hown⟩)
      rintro rfl
      cases hk.symm.trans hl
      rw [(h.writes.sound hk).owner hclosed] at hown
      cases hown

/-- A call closes the scope, or leaves it as it is and needed as long as it has an object or views. -/
theorem sound_call (h : c.Sound) {op : PyOp} (hop : c.dropped = false ∨ onView op = true) {py : PyWrite}
    {v : Except PyExn PyValue} (he : c.py.exec op = some (py, v)) :
    c.py.SameAccess py ∧ (¬ (c.dropped = true ∧ py.native.exports = 0) → ({ c with py := py } : WriteScope).Sound) ∨
      c.py.native.closed = false ∧ py.native.closed = true ∧ ({ c with py := py } : WriteScope).Sound := by
  have hreach : PyWrite.Reachable py :=
    .next h.reach trivial (show c.py.step op = some py by rw [PyWrite.step, he, Option.map_some])
  have hsized : py.Sized := h.sized.exec he
  rcases h.reach.inv.exec_access he with hsame | ⟨hclosing, hview⟩
  · have hclosed : py.native.closed = c.py.native.closed := by rw [hsame]
    have howner : py.native.owner = c.py.native.owner := by rw [hsame]
    refine .inl ⟨hsame, fun hmore => ⟨hreach, hsized, fun hd => ⟨?_, fun hx => hmore ⟨hd, hx⟩⟩, fun hc => ?_⟩⟩
    · exact hclosed.trans (h.dropped hd).1
    · exact howner.trans (h.owner (hclosed.symm.trans hc))
  · refine .inr ⟨hclosing.before, hclosing.closed, hreach, hsized, fun hd => ?_, fun _ => hclosing.owner⟩
    rcases hop with hop | hop
    · cases hd.symm.trans hop
    · cases hview.symm.trans hop

theorem scopeCall (h : Inv s) (hk : s.scope k = some c) {op : PyOp} (hop : c.dropped = false ∨ onView op = true)
    {py : PyWrite} {v : Except PyExn PyValue} (he : c.py.exec op = some (py, v)) :
    ∃ s' res, s.scopeCall k op = some (s', res) ∧ Inv s' := by
  have hsound := h.writes.sound hk
  unfold System.scopeCall
  simp only [hk, hop, he, guard, Option.bind_eq_bind, Option.bind_some, if_true, Option.pure_def]
  rcases sound_call hsound hop he with ⟨hsame, hkeep⟩ | ⟨hopen, hclosed, hsound'⟩
  · have hclosed : py.native.closed = c.py.native.closed := by rw [hsame]
    rw [if_neg (by rw [hclosed]; simp)]
    split
    · -- the last view of a scope that is dropped
      rename_i hlast
      obtain ⟨hsome, hinv⟩ := h.endScope hk (hsound.dropped hlast.1).1 (x := none) fun c' hc' => by cases hc'
      obtain ⟨s', hs'⟩ := Option.isSome_iff_exists.1 hsome
      exact ⟨s', _, by rw [hs']; rfl, hinv s' hs'⟩
    · rename_i hmore
      exact ⟨_, _, rfl, h.rescoped hk rfl hsame (hkeep hmore)⟩
  · rw [if_pos ⟨hclosed, hopen⟩]
    obtain ⟨hsome, hinv⟩ := h.endScope hk hopen (x := some { c with py := py }) fun c' hc' => by
      cases hc'
      exact ⟨hsound', hclosed⟩
    obtain ⟨s', hs'⟩ := Option.isSome_iff_exists.1 hsome
    exact ⟨s', _, by rw [hs']; rfl, hinv s' hs'⟩

theorem dropScope (h : Inv s) (hk : s.scope k = some c) (hdropped : c.dropped = false) :
    ∃ s' res, s.dropScope k = some (s', res) ∧ Inv s' := by
  have hsound := h.writes.sound hk
  unfold System.dropScope
  simp only [hk, hdropped, guard, Option.bind_eq_bind, Option.bind_some, if_true, Option.pure_def]
  split
  · rename_i hclosed
    exact ⟨_, _, rfl, h.unscoped hk hclosed⟩
  rename_i hopen
  rw [Bool.not_eq_true] at hopen
  split
  · obtain ⟨hsome, hinv⟩ := h.endScope hk hopen (x := none) fun c' hc' => by cases hc'
    obtain ⟨s', hs'⟩ := Option.isSome_iff_exists.1 hsome
    exact ⟨s', _, by rw [hs']; rfl, hinv s' hs'⟩
  · rename_i hviews
    exact ⟨_, _, rfl, h.rescoped hk rfl rfl ⟨hsound.reach, hsound.sized, fun _ => ⟨hopen, hviews⟩, hsound.owner⟩⟩

/-- A live view keeps its scope open. -/
theorem live_open (h : c.Sound) {v : Nat} (hlive : c.py.Live v) : c.py.native.closed = false := by
  have hpy := h.reach.inv
  rw [hpy.closed, Bool.not_eq_false']
  by_contra hno
  exact hpy.not_live.2 (hpy.shut (by simpa using hno)) v hlive

/-- An element of a live view is a byte of the block. -/
theorem store (h : Inv s) (hk : s.scope k = some c) {v : Nat} {view : MemoryView} (hv : c.py.views[v]? = some view)
    (hlive : view.released = false) (offset : Nat) (byte : UInt8) :
    ∃ s' res, s.exec (.store k v offset byte) = some (s', res) ∧ Inv s' := by
  have hsound := h.writes.sound hk
  by_cases hlt : offset < view.byteCount
  · obtain ⟨o, i, n, b, hat⟩ := h.writes.at_ hk (live_open hsound ⟨view, hv, hlive⟩)
    obtain ⟨block, hb, hsize⟩ := hat.size
    have hlen := (h.inv.pool.stored hb).length
    have hsized := hsound.sized view (List.mem_of_getElem? hv)
    have hin : offset < block.payload.length := by omega
    obtain ⟨w', he⟩ : ∃ w', Proc.exec s.world (.writeByte c.handle offset byte) = some (w', .done) := by
      simp [exec, World.writeByte, hat.handle, hat.dataPtr, hb, hin]
    refine ⟨_, .ok .none, ?_, h.bare rfl he⟩
    simp only [System.exec, hk, hv, hlive, hlt, guard, Option.bind_eq_bind, Option.bind_some, if_true,
      System.call_of he]
    rfl
  · exact ⟨s, .error .indexError, by simp [System.exec, hk, hv, hlive, hlt, guard], h⟩

/-! ### Publication -/

theorem publish (h : Inv s) (hb : s.buffer o = some x) (hrefs : 0 < x.refs) (gid : GidKey) (e : DescriptorEnv) :
    ∃ s' res, s.exec (.publish o gid e) = some (s', res) ∧ Inv s' := by
  have hcreate : ∀ impl, (∀ i, impl = some i → ∃ t, s.world.buf i = some t ∧ t.elem = 1) →
      ∃ w' d, s.call (.createDescriptor impl gid e) = some ({ s with world := w' }, .descriptor d) ∧
        Inv { s with world := w' } := by
    intro impl himpl
    have hbytes : (impl >>= s.world.buf).all (fun t => t.elem == 1) = true := by
      cases impl with
      | none => rfl
      | some i =>
        obtain ⟨t, ht, helem⟩ := himpl i rfl
        rw [Option.bind_eq_bind, Option.bind_some, ht, Option.all_some, helem]
        rfl
    have he : Proc.exec s.world (.createDescriptor impl gid e) =
        some ((s.world.createDescriptorWithEndpoint impl gid e).1,
          .descriptor (s.world.createDescriptorWithEndpoint impl gid e).2) := by
      simp only [Proc.exec, hbytes, guard, if_true]
      rfl
    exact ⟨_, _, System.call_of he, h.bare rfl he⟩
  simp only [System.exec, hb, hrefs, guard, Option.bind_eq_bind, Option.bind_some, if_true]
  cases hc : x.content with
  | shared i =>
    obtain ⟨w', d, hcall, hinv⟩ := hcreate (some i) fun j hj => by
      cases hj
      obtain ⟨t, ht, hw⟩ := h.buffers.backs ⟨x, hb, hc⟩
      exact ⟨t, ht, hw.elem⟩
    exact ⟨_, .ok (.descriptor d), by rw [hcall]; rfl, hinv⟩
  | other bytes =>
    obtain ⟨w', d, hcall, hinv⟩ := hcreate none fun j hj => by cases hj
    exact ⟨_, .ok (.descriptor d), by rw [hcall]; rfl, hinv⟩

end Inv

end MemfdBuffer.Python
