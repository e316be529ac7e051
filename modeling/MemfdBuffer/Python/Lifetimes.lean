import MemfdBuffer.Python.Inv

/-!
# Objects come and go

What is destroyed with the last reference to an object leaves everything else whole: a buffer goes only when no access
is on it, so that no writer is abandoned, and a handle goes before the buffer it is on.
-/

namespace MemfdBuffer.Python

open Proc

variable {T : Touching} {s s' : System} {o p i k l n b : Nat} {a : NativeReadAccess} {c : WriteScope} {r : ReadHandle}
  {x : BufferObject} {w' : World} {op : Proc.Op} {out : Out}

namespace System

theorem call_eq (h : s.call op = some (s', out)) :
    ∃ w', Proc.exec s.world op = some (w', out) ∧ s' = { s with world := w' } := by
  obtain ⟨⟨w', out'⟩, he, heq⟩ := Option.map_eq_some_iff.1 h
  cases heq
  exact ⟨w', he, rfl⟩

theorem call_of (h : Proc.exec s.world op = some (w', out)) : s.call op = some ({ s with world := w' }, out) := by
  rw [call, h, Option.map_some]

theorem call_isSome (h : (Proc.exec s.world op).isSome) : (s.call op).isSome := by
  unfold call
  rw [Option.isSome_map]
  exact h

theorem buffer_setBuffer {y : Option BufferObject} (h : s.buffer o = some x) :
    (s.setBuffer o y).buffer p = if p = o then y else s.buffer p := Slots.get_set h

theorem access_setAccess {y : Option NativeReadAccess} (h : s.access k = some a) :
    (s.setAccess k y).access l = if l = k then y else s.access l := Slots.get_set h

theorem scope_setScope {y : Option WriteScope} (h : s.scope k = some c) :
    (s.setScope k y).scope l = if l = k then y else s.scope l := Slots.get_set h

theorem owned_iff : s.owned o = true ↔ (∃ k a, s.access k = some a ∧ a.owner = o) ∨
    ∃ k c, s.scope k = some c ∧ c.py.native.owner = some o := by
  unfold owned
  rw [Bool.or_eq_true, List.any_eq_true, List.any_eq_true]
  refine or_congr ⟨?_, ?_⟩ ⟨?_, ?_⟩
  · rintro ⟨y, hy, ho⟩
    obtain ⟨k, hk⟩ := List.mem_iff_getElem?.1 hy
    cases y with
    | none => cases ho
    | some a => exact ⟨k, a, Slots.get_eq_some.2 hk, by simpa using ho⟩
  · rintro ⟨k, a, ha, rfl⟩
    exact ⟨some a, List.mem_of_getElem? (Slots.get_eq_some.1 ha), by simp⟩
  · rintro ⟨y, hy, ho⟩
    obtain ⟨k, hk⟩ := List.mem_iff_getElem?.1 hy
    cases y with
    | none => cases ho
    | some c => exact ⟨k, c, Slots.get_eq_some.2 hk, by simpa using ho⟩
  · rintro ⟨k, c, hc, ho⟩
    exact ⟨some c, List.mem_of_getElem? (Slots.get_eq_some.1 hc), by simp [ho]⟩

theorem Kept.mono (h : s.Kept o) (hb : ∀ y, s'.buffer o = some y → ∃ x, s.buffer o = some x ∧ (0 < x.refs → 0 < y.refs))
    (ho : s.owned o = true → s'.owned o = true) : s'.Kept o := by
  intro y hy
  obtain ⟨x, hx, hrefs⟩ := hb y hy
  exact (h x hx).imp hrefs ho

end System

/-! ### What does not change -/

theorem Stays.of_buffers (h : s'.buffers = s.buffers) (hT : ∀ i, ¬ T.buf i) : Stays T s s' o := fun x hx =>
  ⟨x, by rw [System.buffer, h]; exact hx, rfl, fun i _ => hT i⟩

theorem Buffers.frame (h : Buffers s) (ht : Turn T s.world s'.world) (hs' : s'.buffers = s.buffers)
    (hT : ∀ i, ¬ T.buf i) : Buffers s' := by
  have hnone : s.buffer s.buffers.length = none := Slots.get_length
  refine h.update (o := s.buffers.length) (x := none) ht (fun p => ?_) (fun _ i _ _ => hT i) (fun y i hy => by cases hy)
    fun i t _ hthis => ?_
  · rw [System.buffer, hs']
    split
    · rename_i hp
      rw [hp]
      exact hnone
    · rfl
  · rcases hthis with hthis | ⟨y, hy, -⟩
    · exact absurd hthis (hT i)
    · rw [hnone] at hy
      cases hy

theorem Reads.frame (h : Reads s) (ht : Turn T s.world s'.world) (hs' : s'.reads = s.reads) (hT : ∀ j, ¬ T.read j)
    (ho : ∀ l a, s.access l = some a → Stays T s s' a.owner) : Reads s' := by
  have hnone : s.access s.reads.length = none := Slots.get_length
  refine h.update (k := s.reads.length) (x := none) ht (fun l => ?_) (fun l a _ hl => ⟨ho l a hl, hT _⟩)
    (fun a ha => by cases ha) fun j r _ hthis => ?_
  · rw [System.access, hs']
    split
    · rename_i hl
      rw [hl]
      exact hnone
    · rfl
  · rcases hthis with hthis | ⟨a, ha, -⟩
    · exact absurd hthis (hT j)
    · rw [hnone] at ha
      cases ha

theorem Writes.frame (h : Writes s) (ht : Turn T s.world s'.world) (hs' : s'.scopes = s.scopes) (hT : ∀ l, ¬ T.write l)
    (ho : ∀ l c o, s.scope l = some c → c.py.native.owner = some o → Stays T s s' o) : Writes s' := by
  have hnone : s.scope s.scopes.length = none := Slots.get_length
  refine h.update (k := s.scopes.length) (x := none) ht (fun l => ?_)
    (fun l c o _ hl _ howner => ⟨ho l c o hl howner, hT _⟩) (fun c hc => by cases hc) fun l y _ hthis => ?_
  · rw [System.scope, hs']
    split
    · rename_i hl
      rw [hl]
      exact hnone
    · rfl
  · rcases hthis with hthis | ⟨c, hc, -⟩
    · exact absurd hthis (hT l)
    · rw [hnone] at hc
      cases hc

namespace Core

theorem inv (h : Core s) : Proc.Inv s.world [] := h.reach.inv

theorem world (h : Core s) (he : Proc.exec s.world op = some (w', out)) (ha : op.abandons s.world = false) :
    Proc.Reachable w' ∧ Homed w' := by
  have hstep : Proc.step s.world op = some w' := by rw [Proc.step, he, Option.map_some]
  exact ⟨.next h.reach trivial hstep, h.homed.exec h.inv ha he⟩

/-- The process has changed, but no buffer and no handle. -/
theorem quiet (h : Core s) (hreach : Proc.Reachable w') (hhomed : Homed w') (ht : Turn {} s.world w') :
    Core { s with world := w' } :=
  ⟨hreach, hhomed, h.buffers.frame ht rfl fun _ => id, h.reads.frame ht rfl (fun _ => id)
    fun _ _ _ => .of_buffers rfl fun _ => id, h.writes.frame ht rfl (fun _ => id) fun _ _ _ _ _ =>
      .of_buffers rfl fun _ => id⟩

/-- The writer of a buffer is that of an open scope on its object. -/
theorem writer (h : Core s) (hb : s.Backs o i) (hw : s.world.writing i = true) : s.owned o = true := by
  obtain ⟨t, ht, hwhole⟩ := h.buffers.backs hb
  obtain ⟨n, st, hn, hst, hu⟩ : ∃ n st, t.shared.handleState = some n ∧ s.world.states[n]? = some st ∧
    st.state = .inUse := by
    unfold World.writing at hw
    rw [ht, Option.any_some, beq_iff_eq] at hw
    cases hn : t.shared.handleState with
    | none => simp [World.stateOf, hn] at hw
    | some n => exact ⟨n, _, rfl, h.inv.stateOf (.buf ht) hn, hw⟩
  have hone := ((h.inv.states hst).inUse hu).1
  obtain ⟨l, wh, hl, hpos⟩ := Slots.exists_of_total_pos (f := points (·.state) n) (l := s.world.writes)
    (by unfold World.writers at hone; omega)
  have hln : wh.state = some n := points_pos.1 hpos
  obtain ⟨k, c, hk, hopen, rfl⟩ := h.writes.covered hl
  obtain ⟨o', j, m, b, hat⟩ := h.writes.at_ hk hopen
  have hwh : wh = c.py.native.handle := Option.some.inj (Eq.symm hl |>.trans hat.handle)
  -- the handle is on the buffer that has its state
  have hptr : t.shared.dataPtr = wh.dataPtr :=
    h.inv.writeBound hl (.buf ht) (by rw [hwh, hat.dataPtr]; exact Option.some_ne_none b) (hn.trans hln.symm)
  obtain ⟨t', ht', hptr', -⟩ := hat.buf
  rw [hwh, hat.dataPtr] at hptr
  have hij := h.inv.slot_unique ht ht' hptr hptr'
  subst hij
  have hoo := h.buffers.unique hb hat.backs
  subst hoo
  exact System.owned_iff.2 (.inr ⟨k, c, hk, hat.owner⟩)

/-- The end of an object that nothing refers to. -/
theorem collect (h : Core s) (hk : ∀ p, p ≠ o → s.Kept p) (he : s.collect o = some s') : Inv s' := by
  unfold System.collect at he
  cases hb : s.buffer o with
  | none =>
    rw [hb] at he
    cases he
    refine ⟨h, fun p => ?_⟩
    by_cases hp : p = o
    · intro x hx
      rw [hp, hb] at hx
      cases hx
    · exact hk p hp
  | some x =>
    rw [hb] at he
    dsimp only at he
    split at he
    · rename_i hgone
      -- no access is on the object
      have hread : ∀ l a, s.access l = some a → a.owner ≠ o := fun l a hl heq => by
        rw [System.owned_iff.2 (.inl ⟨l, a, hl, heq⟩)] at hgone
        cases hgone.2
      have hwrite : ∀ l c q, s.scope l = some c → c.py.native.owner = some q → q ≠ o := fun l c q hl hq heq => by
        rw [System.owned_iff.2 (.inr ⟨l, c, hl, hq.trans (congrArg some heq)⟩)] at hgone
        cases hgone.2
      have hkept : ∀ {s' : System}, (∀ p, s'.buffer p = if p = o then none else s.buffer p) → s'.reads = s.reads →
          s'.scopes = s.scopes → ∀ p, s'.Kept p := by
        intro s' hbuf hreads hscopes p
        by_cases hp : p = o
        · intro y hy
          rw [hbuf, if_pos hp] at hy
          cases hy
        · refine (hk p hp).mono (fun y hy => ⟨y, ?_, id⟩) fun ho => ?_
          · rw [hbuf, if_neg hp] at hy
            exact hy
          · rw [System.owned, hreads, hscopes]
            exact ho
      cases hcontent : x.content with
      | shared i =>
        rw [hcontent] at he
        obtain ⟨⟨s₁, out⟩, hcall, rfl⟩ := Option.map_eq_some_iff.1 he
        obtain ⟨w', hexec, rfl⟩ := System.call_eq hcall
        have hback : s.Backs o i := ⟨x, hb, hcontent⟩
        have ha : (Proc.Op.destroyBuf i).abandons s.world = false := by
          cases hw : s.world.writing i with
          | false => exact hw
          | true =>
            rw [h.writer hback hw] at hgone
            cases hgone.2
        obtain ⟨hreach, hhomed⟩ := h.world hexec ha
        obtain ⟨ht, hnone⟩ := turn_destroyBuf hexec
        have hbuf : ∀ p, ({ s.setBuffer o none with world := w' } : System).buffer p =
            if p = o then none else s.buffer p := fun p => System.buffer_setBuffer hb
        have hstays : ∀ p, p ≠ o → Stays { buf := fun k => k = i } s { s.setBuffer o none with world := w' } p := by
          intro p hp y hy
          refine ⟨y, (hbuf p).trans ((if_neg hp).trans hy), rfl, fun j hj heq => hp ?_⟩
          cases heq
          exact h.buffers.unique ⟨y, hy, hj⟩ hback
        refine ⟨⟨hreach, hhomed, ?_, ?_, ?_⟩, hkept hbuf rfl rfl⟩
        · refine h.buffers.update (o := o) (x := none) ht hbuf (fun p j hp hj => ((hstays p hp).backs hj).2)
            (fun y j hy => by cases hy) fun j t hj hthis => ?_
          have hji : j = i := by
            rcases hthis with hji | ⟨y, hy, hj'⟩
            · exact hji
            · cases hb.symm.trans hy
              cases hcontent.symm.trans hj'
              rfl
          rw [hji] at hj
          cases hnone.symm.trans hj
        · exact h.reads.frame ht rfl (fun _ => id) fun l a hl => hstays _ (hread l a hl)
        · exact h.writes.frame ht rfl (fun _ => id) fun l c q hl hq => hstays _ (hwrite l c q hl hq)
      | other bytes =>
        rw [hcontent] at he
        cases he
        have hbuf : ∀ p, (s.setBuffer o none).buffer p = if p = o then none else s.buffer p :=
          fun p => System.buffer_setBuffer hb
        have hstays : ∀ p, p ≠ o → Stays {} s (s.setBuffer o none) p := fun p hp y hy =>
          ⟨y, (hbuf p).trans ((if_neg hp).trans hy), rfl, fun _ _ => id⟩
        refine ⟨⟨h.reach, h.homed, ?_, ?_, ?_⟩, hkept hbuf rfl rfl⟩
        · refine h.buffers.update (o := o) (x := none) (.refl _) hbuf (fun _ _ _ _ => id) (fun y j hy => by cases hy)
            fun j t hj hthis => ?_
          rcases hthis with hthis | ⟨y, hy, hj'⟩
          · exact hthis.elim
          · cases hb.symm.trans hy
            cases hcontent.symm.trans hj'
        · exact h.reads.frame (.refl _) rfl (fun _ => id) fun l a hl => hstays _ (hread l a hl)
        · exact h.writes.frame (.refl _) rfl (fun _ => id) fun l c q hl hq => hstays _ (hwrite l c q hl hq)
    · rename_i hgone
      cases he
      refine ⟨h, fun p => ?_⟩
      by_cases hp : p = o
      · intro y hy
        rw [hp] at hy ⊢
        cases hb.symm.trans hy
        by_contra hno
        rw [not_or, Nat.not_lt, Nat.le_zero, Bool.not_eq_true] at hno
        exact hgone hno
      · exact hk p hp

theorem collect_isSome (h : Core s) (o : Nat) : (s.collect o).isSome := by
  unfold System.collect
  cases hb : s.buffer o with
  | none => rfl
  | some x =>
    dsimp only
    split
    · cases hcontent : x.content with
      | shared i =>
        obtain ⟨t, ht, -⟩ := h.buffers.backs ⟨x, hb, hcontent⟩
        dsimp only
        rw [Option.isSome_map]
        refine System.call_isSome ?_
        have ht : (s.setBuffer o none).world.buf i = some t := ht
        simp [exec, ht]
      | other bytes => rfl
    · rfl

end Core

/-! ### Accesses and scopes -/

/-- An access and its handle are gone. -/
theorem Inv.withoutRead (h : Inv s) (hk : s.access k = some a)
    (he : Proc.exec s.world (.destroyRead a.handle) = some (w', out)) :
    Core (({ s with world := w' } : System).setAccess k none) := by
  obtain ⟨ht, hnone⟩ := turn_destroyRead he
  obtain ⟨hreach, hhomed⟩ := h.world he rfl
  have hacc : ∀ l, (({ s with world := w' } : System).setAccess k none).access l = if l = k then none else s.access l :=
    fun l => System.access_setAccess hk
  refine ⟨hreach, hhomed, h.buffers.frame ht rfl fun _ => id, ?_,
    h.writes.frame ht rfl (fun _ => id) fun _ _ _ _ _ => .of_buffers rfl fun _ => id⟩
  refine h.reads.update (x := none) ht hacc (fun l a' hl ha' => ⟨.of_buffers rfl fun _ => id, fun heq => ?_⟩)
    (fun a ha => by cases ha) fun j r hr hthis => ?_
  · exact hl (h.reads.unique ha' hk heq)
  · have hj : j = a.handle := by
      rcases hthis with hj | ⟨a', ha', hj⟩
      · exact hj
      · cases hk.symm.trans ha'
        exact hj.symm
    rw [hj] at hr
    cases hnone.symm.trans hr

/-- The end of an access: its handle goes, then its reference to the object. -/
theorem Inv.destroyAccess (h : Inv s) (hk : s.access k = some a) :
    (s.destroyAccess k a).isSome ∧ ∀ s', s.destroyAccess k a = some s' → Inv s' := by
  obtain ⟨-, r, b, hat⟩ := h.reads.at_ hk
  obtain ⟨w', hexec⟩ : ∃ w', Proc.exec s.world (.destroyRead a.handle) = some (w', .done) :=
    ⟨s.world.destroyRead a.handle, by simp [exec, hat.handle]⟩
  have hcore := h.withoutRead hk hexec
  have hacc : ∀ l, (({ s with world := w' } : System).setAccess k none).access l = if l = k then none else s.access l :=
    fun l => System.access_setAccess hk
  have hkept : ∀ p, p ≠ a.owner → (({ s with world := w' } : System).setAccess k none).Kept p := by
    intro p hp
    refine (h.kept p).mono (fun y hy => ⟨y, hy, id⟩) fun ho => ?_
    rcases System.owned_iff.1 ho with ⟨l, a', hl, hown⟩ | ⟨l, c, hl, hown⟩
    · refine System.owned_iff.2 (.inl ⟨l, a', (hacc l).trans ((if_neg ?_).trans hl), hown⟩)
      rintro rfl
      cases hk.symm.trans hl
      exact hp hown.symm
    · exact System.owned_iff.2 (.inr ⟨l, c, hl, hown⟩)
  have heq : s.destroyAccess k a = (({ s with world := w' } : System).setAccess k none).collect a.owner := by
    unfold System.destroyAccess
    rw [System.call_of hexec]
    rfl
  rw [heq]
  exact ⟨hcore.collect_isSome _, fun s' he => hcore.collect hkept he⟩

/-- An open scope is gone or closed, and its handle is gone. -/
theorem Inv.withoutWrite (h : Inv s) (hk : s.scope k = some c) (hopen : c.py.native.closed = false)
    {x : Option WriteScope} (hx : ∀ c', x = some c' → c'.Sound ∧ c'.py.native.closed = true)
    (he : Proc.exec s.world (.destroyWrite c.handle) = some (w', out)) :
    Core (({ s with world := w' } : System).setScope k x) := by
  obtain ⟨ht, hnone⟩ := turn_destroyWrite he
  obtain ⟨hreach, hhomed⟩ := h.world he rfl
  have hscope : ∀ l, (({ s with world := w' } : System).setScope k x).scope l = if l = k then x else s.scope l :=
    fun l => System.scope_setScope hk
  refine ⟨hreach, hhomed, h.buffers.frame ht rfl fun _ => id,
    h.reads.frame ht rfl (fun _ => id) fun _ _ _ => .of_buffers rfl fun _ => id, ?_⟩
  refine h.writes.update ht hscope (fun l c' q hl hc' hopen' _ => ⟨.of_buffers rfl fun _ => id, fun heq => ?_⟩)
    (fun c' hc' => ⟨(hx c' hc').1, fun hopen' => ?_⟩) fun l y hy hthis => ?_
  · exact hl (h.writes.unique hc' hk hopen' hopen heq)
  · rw [(hx c' hc').2] at hopen'
    cases hopen'
  · have hl : l = c.handle := by
      rcases hthis with hl | ⟨c', hc', -, hl⟩
      · exact hl
      · cases hk.symm.trans hc'
        exact hl.symm
    rw [hl] at hy
    cases hnone.symm.trans hy

/-- The end of a write: the handle goes, then the reference to the object, and of the scope nothing is left that is
open. -/
theorem Inv.endScope (h : Inv s) (hk : s.scope k = some c) (hopen : c.py.native.closed = false) {x : Option WriteScope}
    (hx : ∀ c', x = some c' → c'.Sound ∧ c'.py.native.closed = true) :
    (s.endScope k c.handle c.py.native.owner x).isSome ∧
      ∀ s', s.endScope k c.handle c.py.native.owner x = some s' → Inv s' := by
  obtain ⟨o, i, n, b, hat⟩ := h.writes.at_ hk hopen
  obtain ⟨w', hexec⟩ : ∃ w', Proc.exec s.world (.destroyWrite c.handle) = some (w', .done) :=
    ⟨s.world.destroyWrite c.handle, by simp [exec, hat.handle]⟩
  have hcore := h.withoutWrite hk hopen hx hexec
  have hscope : ∀ l, (({ s with world := w' } : System).setScope k x).scope l = if l = k then x else s.scope l :=
    fun l => System.scope_setScope hk
  have hkept : ∀ p, p ≠ o → (({ s with world := w' } : System).setScope k x).Kept p := by
    intro p hp
    refine (h.kept p).mono (fun y hy => ⟨y, hy, id⟩) fun ho => ?_
    rcases System.owned_iff.1 ho with ⟨l, a', hl, hown⟩ | ⟨l, c', hl, hown⟩
    · exact System.owned_iff.2 (.inl ⟨l, a', hl, hown⟩)
    · refine System.owned_iff.2 (.inr ⟨l, c', (hscope l).trans ((if_neg ?_).trans hl), hown⟩)
      rintro rfl
      cases hk.symm.trans hl
      cases hat.owner.symm.trans hown
      exact hp rfl
  have heq : s.endScope k c.handle c.py.native.owner x =
    (({ s with world := w' } : System).setScope k x).collect o := by
    unfold System.endScope
    rw [System.call_of hexec, hat.owner]
    rfl
  rw [heq]
  exact ⟨hcore.collect_isSome _, fun s' he => hcore.collect hkept he⟩

end MemfdBuffer.Python
