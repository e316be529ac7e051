import MemfdBuffer.Proc.Runs

/-!
# What a call leaves alone

Every call names the slots it rewrites, the blocks it writes to and the states it gives a writer. Off this scope a
buffer keeps its block, its sizes and its handle state, except that a missing state may have been made, a read
handle stays as it is, a block keeps its payload and no state comes to have a writer. A finalized state is final for
every call.
-/

namespace MemfdBuffer

namespace Pool
variable {p q r : Pool} {b n : Nat}

/-- Every block of `p` is in `q`, with its payload. -/
def Steady (p q : Pool) : Prop :=
  ∀ (b : Nat) (x : SharedBufferBlock), p.allBlocks[b]? = some x →
    ∃ y, q.allBlocks[b]? = some y ∧ y.payload = x.payload ∧ y.payloadSize = x.payloadSize

namespace Steady

theorem refl (p : Pool) : Steady p p := fun _ x hx => ⟨x, hx, rfl, rfl⟩

theorem trans (h : Steady p q) (h' : Steady q r) : Steady p r := by
  intro b x hx
  obtain ⟨y, hy, hp, hs⟩ := h b x hx
  obtain ⟨z, hz, hp', hs'⟩ := h' b y hy
  exact ⟨z, hz, hp'.trans hp, hs'.trans hs⟩

theorem of_map {f : Nat → SharedBufferBlock → SharedBufferBlock}
    (hget : ∀ c : Nat, q.allBlocks[c]? = (p.allBlocks[c]?).map (f c))
    (hf : ∀ c x, (f c x).payload = x.payload ∧ (f c x).payloadSize = x.payloadSize) : Steady p q := by
  intro c x hx
  exact ⟨f c x, by rw [hget, hx]; rfl, (hf c x).1, (hf c x).2⟩

theorem modifyBlock {f : SharedBufferBlock → SharedBufferBlock}
    (hf : ∀ x, (f x).payload = x.payload ∧ (f x).payloadSize = x.payloadSize) : Steady p (p.modifyBlock b f) := by
  refine of_map (f := fun c x => if c = b then f x else x) (fun c => get_modifyBlock f) fun c x => ?_
  split
  · exact hf x
  · exact ⟨rfl, rfl⟩

theorem modifyControl {f : SharedBufferControlHeader → SharedBufferControlHeader} : Steady p (p.modifyControl b f) :=
  modifyBlock fun _ => ⟨rfl, rfl⟩

theorem outsideStep {act : Outside} : Steady p (p.outsideStep act) := by
  refine of_map (f := fun c x => if c = act.block then (act.on x (p.outside c)).1 else x) (fun c => get_outsideStep)
    fun c x => ?_
  obtain ⟨control, he⟩ := act.on_eq x (p.outside c)
  split
  · rw [he]
    exact ⟨rfl, rfl⟩
  · exact ⟨rfl, rfl⟩

theorem interfere (acts : List Outside) : Steady p (p.interfere acts) := by
  induction acts generalizing p with
  | nil => exact refl p
  | cons act acts ih => exact outsideStep.trans ih

theorem free (b : Nat) : Steady p (p.free (some b)) := by
  refine of_map (f := fun c x => if c = b then { x with inUse := false } else x) (fun c => get_free) fun c x => ?_
  split <;> exact ⟨rfl, rfl⟩

theorem effects (l : List Effect) : Steady p (p.effects l) := by
  induction l generalizing p with
  | nil => exact refl p
  | cons e l ih =>
    refine trans ?_ (ih (p := p.effect e))
    cases e with
    | releaseReader b => exact modifyControl
    | poolFree b => exact free b
    | custom n => exact refl p

theorem handOut (e : AllocEnv) : Steady p (p.handOut b e) := by
  have h1 : Steady p _ := modifyBlock (b := b)
    (f := fun block => { block with inUse := true, currentUid := drawUid e.uid })
    fun _ => ⟨rfl, rfl⟩
  exact (((((h1.trans (interfere e.beforeUid)).trans modifyControl).trans (interfere e.beforeStamp)).trans
    modifyControl).trans (interfere e.beforeDrop)).trans modifyControl

theorem createBlock (mapping : Except Exn Int) : Steady p (p.createBlock n mapping).1 := by
  intro b x hx
  cases hc : p.createBlock n mapping with
  | mk q res =>
    cases res with
    | error e =>
      obtain ⟨hall, -⟩ := createBlock_error hc
      exact ⟨x, by rw [hall]; exact hx, rfl, rfl⟩
    | ok c =>
      obtain ⟨-, -, -, -, fd, hall⟩ := createBlock_ok hc
      refine ⟨x, ?_, rfl, rfl⟩
      rw [hall, List.getElem?_append_left (List.getElem?_eq_some_iff.1 hx).1]
      exact hx

theorem allocate (e : AllocEnv) : Steady p (p.allocate n e).1 := by
  unfold Pool.allocate
  split
  · exact refl p
  · obtain ⟨acts, -, ⟨hs, -⟩ | ⟨j, c, block, -, -, -, -, hs⟩⟩ := scan_spec e.attempt (p.bucket n) p 0
    · simp only [hs]
      have h := (interfere (p := p) acts).trans (createBlock (n := n) e.mapping)
      unfold allocateNew
      cases hc : (p.interfere acts).createBlock n e.mapping with
      | mk q res =>
        rw [hc] at h
        cases res with
        | error x => exact h
        | ok c => exact h.trans (handOut e)
    · simp only [hs]
      exact ((interfere acts).trans modifyControl).trans (handOut (p := takeEntry _ n (0 + j) (p.bucket n)) e)

end Steady

end Pool

namespace Proc

open Slots

/-- State `n` has a writer that is not finalized. -/
def World.InUse (w : World) (n : Nat) : Prop := ∃ st, w.states[n]? = some st ∧ st.state = .inUse

/-- What a call may change. -/
structure Scope where
  buf : Nat → Prop := fun _ => False
  read : Nat → Prop := fun _ => False
  block : Nat → Prop := fun _ => False
  writing : Nat → Prop := fun _ => False

/-- A buffer that a call has not rewritten, where there were `m` states before. -/
structure Kept (m : Nat) (s s' : Buf) : Prop where
  elem : s'.elem = s.elem
  size : s'.impl.size = s.impl.size
  dataPtr : s'.shared.dataPtr = s.shared.dataPtr
  bytes : s'.shared.size = s.shared.size
  state : s'.shared.handleState = s.shared.handleState ∨
    s.shared.handleState = none ∧ ∃ n, s'.shared.handleState = some n ∧ m ≤ n

structure Frame (E : Scope) (w w' : World) : Prop where
  buf {k : Nat} {s : Buf} : w.buf k = some s → ¬ E.buf k → ∃ s', w'.buf k = some s' ∧ Kept w.states.length s s'
  read {k : Nat} {r : ReadHandle} : w.read k = some r → ¬ E.read k → w'.read k = some r
  block {b : Nat} {x : SharedBufferBlock} : w.pool.allBlocks[b]? = some x →
    ∃ y, w'.pool.allBlocks[b]? = some y ∧ y.payloadSize = x.payloadSize ∧ (¬ E.block b → y.payload = x.payload)
  states {n : Nat} {st : HandleState} : w.states[n]? = some st →
    ∃ st', w'.states[n]? = some st' ∧ (st.state = .finalized → st'.state = .finalized)
  writing {n : Nat} : w'.InUse n → ¬ E.writing n → w.InUse n

section
variable {E E' : Scope} {w w₁ w' : World} {i j k l n m b : Nat} {s s₁ s' t : Buf} {r : ReadHandle} {pool : Pool}
  {states : List HandleState} {gid : GidKey} {impl : Option Nat} {env : AllocEnv} {elem count : Nat}

namespace Kept

theorem refl (s : Buf) : Kept m s s := ⟨rfl, rfl, rfl, rfl, .inl rfl⟩

theorem trans (hm : m ≤ n) (h : Kept m s s₁) (h' : Kept n s₁ s') : Kept m s s' := by
  refine ⟨h'.elem.trans h.elem, h'.size.trans h.size, h'.dataPtr.trans h.dataPtr, h'.bytes.trans h.bytes, ?_⟩
  rcases h'.state with h2 | ⟨h2, c, hc, hle⟩
  · rw [h2]
    exact h.state
  · rcases h.state with h1 | ⟨-, d, hd, -⟩
    · exact .inr ⟨h1 ▸ h2, c, hc, hm.trans hle⟩
    · rw [hd] at h2
      cases h2

end Kept

namespace Frame

theorem length_le (h : Frame E w w') : w.states.length ≤ w'.states.length := by
  by_contra hlt
  obtain ⟨st, hst⟩ : ∃ st, w.states[w'.states.length]? = some st :=
    ⟨_, List.getElem?_eq_getElem (Nat.lt_of_not_le hlt)⟩
  obtain ⟨st', hst', -⟩ := h.states hst
  have := (List.getElem?_eq_some_iff.1 hst').1
  omega

theorem refl (w : World) : Frame {} w w :=
  ⟨fun hs _ => ⟨_, hs, .refl _⟩, fun hr _ => hr, fun hx => ⟨_, hx, rfl, fun _ => rfl⟩, fun hn => ⟨_, hn, id⟩,
    fun hn _ => hn⟩

/-- Only what is there counts. -/
theorem mono (h : Frame E w w') (hb : ∀ k s, w.buf k = some s → E.buf k → E'.buf k)
    (hr : ∀ k r, w.read k = some r → E.read k → E'.read k)
    (hx : ∀ b x, w.pool.allBlocks[b]? = some x → E.block b → E'.block b)
    (hn : ∀ n, w'.InUse n → E.writing n → E'.writing n) : Frame E' w w' where
  buf hs hE := h.buf hs fun he => hE (hb _ _ hs he)
  read hk hE := h.read hk fun he => hE (hr _ _ hk he)
  block hb := by
    obtain ⟨y, hy, hs, hp⟩ := h.block hb
    exact ⟨y, hy, hs, fun hE => hp fun he => hE (hx _ _ hb he)⟩
  states := h.states
  writing hu hE := h.writing hu fun he => hE (hn _ hu he)

theorem trans (h : Frame E w w₁) (h' : Frame E' w₁ w') : Frame
    { buf := fun k => E.buf k ∨ E'.buf k, read := fun k => E.read k ∨ E'.read k,
      block := fun b => E.block b ∨ E'.block b, writing := fun n => E.writing n ∨ E'.writing n } w w' where
  buf hs hE := by
    obtain ⟨s₁, hs₁, hk⟩ := h.buf hs fun he => hE (.inl he)
    obtain ⟨s', hs', hk'⟩ := h'.buf hs₁ fun he => hE (.inr he)
    exact ⟨s', hs', hk.trans h.length_le hk'⟩
  read hr hE := h'.read (h.read hr fun he => hE (.inl he)) fun he => hE (.inr he)
  block hx := by
    obtain ⟨y, hy, hs, hp⟩ := h.block hx
    obtain ⟨z, hz, hs', hp'⟩ := h'.block hy
    exact ⟨z, hz, hs'.trans hs, fun hE => (hp' fun he => hE (.inr he)).trans (hp fun he => hE (.inl he))⟩
  states hn := by
    obtain ⟨st₁, h1, hf⟩ := h.states hn
    obtain ⟨st', h2, hf'⟩ := h'.states h1
    exact ⟨st', h2, fun he => hf' (hf he)⟩
  writing hu hE := h.writing (h'.writing hu fun he => hE (.inr he)) fun he => hE (.inl he)

/-- A call that leaves everything alone is within any scope. -/
theorem widen (h : Frame {} w w') (E : Scope) : Frame E w w' :=
  h.mono (fun _ _ _ h => h.elim) (fun _ _ _ h => h.elim) (fun _ _ _ h => h.elim) fun _ _ h => h.elim

/-- After a call that leaves everything alone. -/
theorem after (h' : Frame {} w₁ w') (h : Frame E w w₁) : Frame E w w' := by
  refine (h.trans h').mono (fun k _ _ he => ?_) (fun k _ _ he => ?_) (fun b _ _ he => ?_) fun n _ he => ?_
  all_goals exact he.resolve_right id

/-- Before one. -/
theorem before (h : Frame {} w w₁) (h' : Frame E w₁ w') : Frame E w w' := by
  refine (h.trans h').mono (fun k _ _ he => ?_) (fun k _ _ he => ?_) (fun b _ _ he => ?_) fun n _ he => ?_
  all_goals exact he.resolve_left id

/-- Calls of the same scope. -/
theorem twice (h : Frame E w w₁) (h' : Frame E w₁ w') : Frame E w w' := by
  refine (h.trans h').mono (fun k _ _ he => ?_) (fun k _ _ he => ?_) (fun b _ _ he => ?_) fun n _ he => ?_
  all_goals exact he.elim id id

/-! ### Changes -/

theorem withPool (hp : w.pool.Steady pool) : Frame {} w (w.withPool pool) where
  buf hs _ := ⟨_, hs, .refl _⟩
  read hr _ := hr
  block hx := by
    obtain ⟨y, hy, h1, h2⟩ := hp _ _ hx
    exact ⟨y, hy, h2, fun _ => h1⟩
  states hn := ⟨_, hn, id⟩
  writing hn _ := hn

theorem setState {st : HandleState} (st' : HandleState) (hn : w.states[n]? = some st)
    (hf : st.state = .finalized → st'.state = .finalized)
    (hu : E.writing n ∨ (st'.state = .inUse → st.state = .inUse)) : Frame E w (w.setState n st') where
  buf hs _ := ⟨_, hs, .refl _⟩
  read hr _ := hr
  block hx := ⟨_, hx, rfl, fun _ => rfl⟩
  states {m st₁} hm := by
    rw [World.states_setState hn]
    split
    · rename_i hmn
      rw [hmn, hn] at hm
      cases hm
      exact ⟨st', rfl, hf⟩
    · exact ⟨st₁, hm, id⟩
  writing {m} hm hE := by
    obtain ⟨st₁, hm, h1⟩ := hm
    rw [World.states_setState hn] at hm
    split at hm
    · rename_i hmn
      subst hmn
      cases hm
      exact ⟨st, hn, hu.resolve_left hE h1⟩
    · exact ⟨st₁, hm, h1⟩

/-- States and write handles do not count where a state is only appended. -/
theorem addState : Frame {} w { w with states := w.states ++ [{}] } where
  buf hs _ := ⟨_, hs, .refl _⟩
  read hr _ := hr
  block hx := ⟨_, hx, rfl, fun _ => rfl⟩
  states {m st} hm := by
    refine ⟨st, ?_, id⟩
    show (w.states ++ [({} : HandleState)])[m]? = some st
    rw [List.getElem?_append_left (List.getElem?_eq_some_iff.1 hm).1, hm]
  writing {m} hm _ := by
    obtain ⟨st, hm, hu⟩ := hm
    rcases Tally.get_append_cases (show (w.states ++ [{}])[m]? = some st from hm) with hm | ⟨-, rfl⟩
    · exact ⟨st, hm, hu⟩
    · cases hu

theorem setBuf (o : Option Buf) (hs : w.buf i = some s)
    (hE : E.buf i ∨ ∃ s', o = some s' ∧ Kept w.states.length s s') : Frame E w (w.setBuf i o) where
  buf {k t} hk hEk := by
    rw [World.buf_setBuf hs]
    split
    · rename_i hki
      subst hki
      rw [hs] at hk
      cases hk
      obtain ⟨s', rfl, hkept⟩ := hE.resolve_left hEk
      exact ⟨s', rfl, hkept⟩
    · exact ⟨t, hk, .refl t⟩
  read hr _ := hr
  block hx := ⟨_, hx, rfl, fun _ => rfl⟩
  states hn := ⟨_, hn, id⟩
  writing hn _ := hn

theorem addBuf : Frame {} w (w.addBuf s) where
  buf {k t} hk _ := by
    rw [World.buf_addBuf, if_neg (by have := lt_length hk; omega)]
    exact ⟨t, hk, .refl t⟩
  read hr _ := hr
  block hx := ⟨_, hx, rfl, fun _ => rfl⟩
  states hn := ⟨_, hn, id⟩
  writing hn _ := hn

theorem addRead : Frame {} w (w.addRead r) where
  buf hs _ := ⟨_, hs, .refl _⟩
  read {k t} hk _ := by
    rw [World.read_addRead, if_neg (by have := lt_length hk; omega)]
    exact hk
  block hx := ⟨_, hx, rfl, fun _ => rfl⟩
  states hn := ⟨_, hn, id⟩
  writing hn _ := hn

theorem setRead (o : Option ReadHandle) (hr : w.read j = some r) (hE : E.read j) : Frame E w (w.setRead j o) where
  buf hs _ := ⟨_, hs, .refl _⟩
  read {k t} hk hEk := by
    rw [World.read_setRead hr]
    split
    · rename_i hkj
      subst hkj
      exact absurd hE hEk
    · exact hk
  block hx := ⟨_, hx, rfl, fun _ => rfl⟩
  states hn := ⟨_, hn, id⟩
  writing hn _ := hn

/-- Write handles do not count. -/
theorem withWrites (writes : List (Option WriteHandle)) : Frame {} w { w with writes := writes } :=
  ⟨fun hs _ => ⟨_, hs, .refl _⟩, fun hr _ => hr, fun hx => ⟨_, hx, rfl, fun _ => rfl⟩, fun hn => ⟨_, hn, id⟩,
    fun hn _ => hn⟩

end Frame

namespace World

/-! ### Handles -/

theorem handleState_frame (hs : w.buf i = some s) (he : w.handleState i s = (w₁, n)) : Frame {} w w₁ := by
  unfold handleState at he
  cases hn : s.shared.handleState with
  | some m =>
    rw [hn] at he
    cases he
    exact .refl w
  | none =>
    rw [hn] at he
    cases he
    refine (Frame.setBuf _ hs (.inr ⟨_, rfl, ?_⟩)).before Frame.addState
    exact ⟨rfl, rfl, rfl, rfl, .inr ⟨hn, _, rfl, le_rfl⟩⟩

theorem buf_handleState (hs : w.buf i = some s) (he : w.handleState i s = (w₁, n)) :
    w₁.buf i = some (s.withShared { s.shared with handleState := some n }) := by
  unfold handleState at he
  cases hn : s.shared.handleState with
  | some m =>
    rw [hn] at he
    cases he
    rw [hs, ← hn]
    rfl
  | none =>
    rw [hn] at he
    cases he
    exact (buf_setBuf hs).trans (if_pos rfl)

theorem makeLease_steady {control : Option Nat} {res : Except Exn (Option Nat)}
    (hm : w.makeLease control = (w', res)) : Frame {} w w' := by
  unfold makeLease at hm
  split at hm
  · cases hm
    exact .refl w
  · split at hm
    · cases hm
      exact .withPool .modifyControl
    · cases hm
      exact .refl w

theorem getReadHandle_frame {res : Except Exn Nat} (he : w.getReadHandle i = some (w', res)) : Frame {} w w' := by
  unfold getReadHandle at he
  obtain ⟨s, hs, h₁⟩ := Option.bind_eq_some_iff.1 he
  cases hh : w.handleState i s with
  | mk w₁ n =>
    have hf := handleState_frame hs hh
    rw [hh] at h₁
    obtain ⟨st, hst, h₂⟩ := Option.bind_eq_some_iff.1 h₁
    split at h₂
    · cases h₂
      exact hf
    · have hf₁ : Frame {} w (w₁.setState n st.enter) := (Frame.setState st.enter hst id (.inr id)).after hf
      cases hm : (w₁.setState n st.enter).makeLease s.shared.control with
      | mk w₂ lease =>
        have hf₂ := (makeLease_steady hm).after hf₁
        obtain ⟨pool, rfl⟩ := makeLease_frame hm
        rw [hm] at h₂
        cases lease with
        | error e =>
          cases h₂
          have hst' : (w₁.setState n st.enter).states[n]? = some st.enter :=
            (states_setState hst).trans (if_pos rfl)
          exact (Frame.setState (w := (w₁.setState n st.enter).withPool pool) st.enter.leave hst' id
            (.inr id)).after hf₂
        | ok lease =>
          cases h₂
          exact Frame.addRead.after hf₂

/-- A write handle makes the state of its buffer the only new one with a writer. -/
theorem getWriteHandle_frame {res : Except Exn Nat} (he : w.getWriteHandle i = some (w', res)) :
    Frame { writing := fun n => (∃ l, res = .ok l) ∧ ∃ s', w'.buf i = some s' ∧ s'.shared.handleState = some n }
      w w' := by
  unfold getWriteHandle at he
  obtain ⟨s, hs, h₁⟩ := Option.bind_eq_some_iff.1 he
  split at h₁
  · cases h₁
    exact (Frame.refl w).widen _
  split at h₁
  · cases h₁
    exact (Frame.refl w).widen _
  cases hh : w.handleState i s with
  | mk w₁ n =>
    have hf := handleState_frame hs hh
    rw [hh] at h₁
    obtain ⟨st, hst, h₂⟩ := Option.bind_eq_some_iff.1 h₁
    split at h₂
    · cases h₂
      exact hf.widen _
    · cases h₂
      exact hf.widen _
    · rename_i hu
      split at h₂
      · cases h₂
        exact hf.widen _
      · cases h₂
        have hbuf : w₁.buf i = some (s.withShared { s.shared with handleState := some n }) := buf_handleState hs hh
        refine (Frame.withWrites _).after (hf.before (Frame.setState _ hst (fun hfin => ?_) (.inl ?_)))
        · rw [hu] at hfin
          cases hfin
        · exact ⟨⟨_, rfl⟩, _, hbuf, rfl⟩

theorem finalizeWriteHandle_steady (x : SharedBuffer) : Frame {} w (w.finalizeWriteHandle x) := by
  unfold finalizeWriteHandle finalizeState
  split
  · split
    · rename_i st hn
      split
      · exact Frame.setState _ hn (fun _ => rfl) (.inr fun h => by cases h)
      · exact .refl w
    · exact .refl w
  · exact .refl w

theorem effects_frame (l : List Effect) : Frame {} w (w.effects l) := .withPool (.effects l)

theorem holdReaderReference_frame {res : Except Exn Unit} (he : w.holdReaderReference i = some (w', res)) :
    Frame {} w w' := by
  obtain rfl | ⟨s, pool, hs, -, -, hm, rfl⟩ := holdReaderReference_cases he
  · exact .refl _
  · exact (Frame.setBuf (w := w.withPool pool) (some (s.withShared (s.shared.withLease s.shared.control))) hs
      (.inr ⟨_, rfl, rfl, rfl, rfl, rfl, .inl rfl⟩)).after (makeLease_steady hm)

theorem leaveState_frame (o : Option Nat) : Frame {} w (w.leaveState o) := by
  unfold leaveState
  split
  · exact .refl w
  · split
    · rename_i hn
      exact Frame.setState _ hn id (.inr id)
    · exact .refl w

theorem read_leaveState (o : Option Nat) : (w.leaveState o).read j = w.read j := by
  obtain ⟨states, he, -⟩ := leaveState_eq (w := w) o
  rw [he]
  rfl

theorem releaseRead_frame (j : Nat) : Frame { read := fun k => k = j } w (w.releaseRead j) := by
  unfold releaseRead
  split
  · rename_i r hr
    refine ((effects_frame _).after (leaveState_frame r.state)).before (Frame.setRead (r := r) _ ?_ rfl)
    exact (read_leaveState r.state).trans hr
  · exact (Frame.refl w).widen _

theorem destroyRead_frame (j : Nat) : Frame { read := fun k => k = j } w (w.destroyRead j) := by
  unfold destroyRead
  cases hr : w.read j with
  | none =>
    have hrel : w.releaseRead j = w := by
      unfold releaseRead
      rw [hr]
    rw [hrel]
    have hset : w.setRead j none = w := by
      unfold setRead
      rw [set_none hr]
    rw [hset]
    exact (Frame.refl w).widen _
  | some r => exact (releaseRead_frame j).twice (Frame.setRead _ (releaseRead_read hr) rfl)

theorem transferRead_frame (hr : w.read i = some r) (j : Nat) :
    Frame { read := fun k => k = i ∨ k = j } w (w.transferRead i j) := by
  unfold transferRead
  cases hj : w.read j with
  | none => exact (Frame.refl w).widen _
  | some t =>
    have h1 : Frame { read := fun k => k = i ∨ k = j } w (w.setRead i (some t)) := Frame.setRead _ hr (.inl rfl)
    have hj' : (w.setRead i (some t)).read j = some t := by
      rw [read_setRead hr]
      split
      · rfl
      · exact hj
    exact h1.twice (Frame.setRead _ hj' (.inr rfl))

/-! ### Write handles -/

theorem endWrite_frame (o : Option Nat) : Frame {} w (w.endWrite o) := by
  unfold endWrite
  split
  · exact .refl w
  · split
    · rename_i hn
      exact Frame.setState _ hn (fun _ => rfl) (.inr fun h => by cases h)
    · exact .refl w

theorem releaseWrite_frame (l : Nat) : Frame {} w (w.releaseWrite l) := by
  unfold releaseWrite
  split
  · exact (Frame.withWrites _).after (endWrite_frame _)
  · exact .refl w

theorem transferWrite_frame (i j : Nat) : Frame {} w (w.transferWrite i j) := by
  unfold transferWrite
  split
  · exact .withWrites _
  · exact .refl w

theorem destroyWrite_frame (l : Nat) : Frame {} w (w.destroyWrite l) :=
  (Frame.withWrites _).after (releaseWrite_frame l)

/-- After it has been destroyed the state of a write handle has no writer. -/
theorem destroyWrite_ends {h : WriteHandle} (hl : w.write l = some h) (hn : h.state = some n) :
    ¬ (w.destroyWrite l).InUse n := by
  rintro ⟨st, hst, hu⟩
  have hfin := (releaseWrite_spec hl).2 n st hn hst
  rw [hu] at hfin
  cases hfin

theorem stateOf_inUse {x : SharedBuffer} (hn : x.handleState = some n) : (w.stateOf x).state = .inUse ↔ w.InUse n := by
  unfold stateOf InUse
  rw [hn, Option.bind_some]
  cases hst : w.states[n]? with
  | none =>
    constructor
    · intro h
      cases h
    · rintro ⟨st, h, -⟩
      cases h
  | some st =>
    constructor
    · intro h
      exact ⟨st, rfl, h⟩
    · rintro ⟨st', h, hu⟩
      cases h
      exact hu

/-! ### Buffers -/

theorem reset_frame (i : Nat) : Frame { buf := fun k => k = i } w (w.reset i) := by
  unfold reset
  split
  · rename_i s hs
    exact (effects_frame _).before (Frame.setBuf (s := s) _ hs (.inl rfl))
  · exact (Frame.refl w).widen _

theorem destroyBuf_frame (i : Nat) : Frame { buf := fun k => k = i } w (w.destroyBuf i) := by
  unfold destroyBuf
  cases hs : w.buf i with
  | none =>
    have hrel : w.reset i = w := by
      unfold reset
      rw [hs]
    rw [hrel]
    have hset : w.setBuf i none = w := by
      unfold setBuf
      rw [set_none hs]
    rw [hset]
    exact (Frame.refl w).widen _
  | some s => exact (reset_frame i).twice (Frame.setBuf _ (buf_reset hs) (.inl rfl))

theorem setSize_frame (i size : Nat) : Frame { buf := fun k => k = i } w (w.setSize i size) := by
  unfold setSize
  split
  · rename_i s hs
    exact Frame.setBuf _ hs (.inl rfl)
  · exact (Frame.refl w).widen _

theorem clear_frame (i : Nat) : Frame { buf := fun k => k = i } w (w.clear i) :=
  (reset_frame i).twice (setSize_frame i 0)

theorem transfer_frame (i j : Nat) : Frame { buf := fun k => k = i ∨ k = j } w (w.transfer i j) := by
  unfold transfer
  split
  · rename_i s t hs ht
    have h1 : Frame { buf := fun k => k = i ∨ k = j } w (w.setBuf i (some (s.withShared t.shared.moveFrom.1))) :=
      Frame.setBuf _ hs (.inl (.inl rfl))
    by_cases hij : j = i
    · subst hij
      have hj := (buf_setBuf (k := j) (o := some (s.withShared t.shared.moveFrom.1)) hs).trans (if_pos rfl)
      exact h1.twice (Frame.setBuf _ hj (.inl (.inl rfl)))
    · have hj := ((buf_setBuf (k := j) (o := some (s.withShared t.shared.moveFrom.1)) hs).trans (if_neg hij)).trans ht
      exact h1.twice (Frame.setBuf _ hj (.inl (.inr rfl)))
  · exact (Frame.refl w).widen _

theorem assign_frame (hij : i ≠ j) : Frame { buf := fun k => k = i ∨ k = j } w (w.assign i j) := by
  unfold assign
  rw [if_neg hij]
  refine Frame.twice ((reset_frame i).mono (fun k _ _ h => .inl h) (fun _ _ _ h => h) (fun _ _ _ h => h)
    fun _ _ h => h) (transfer_frame i j)

/-! ### Buffers from the pool -/

/-- Nobody here holds or reads block `b`. -/
def Spare (w : World) (b : Nat) : Prop := w.owners b = 0 ∧ w.leases b = 0

theorem allocateRaw_frame {res : Except Exn Nat} (he : w.allocateRaw elem count env = (w', res)) : Frame {} w w' := by
  unfold allocateRaw at he
  split at he
  · cases he
    exact .refl w
  · rename_i bytes _
    have hsteady := Pool.Steady.allocate (p := w.pool) (n := bytes) env
    split at he
    · rename_i pool x hpool
      cases he
      rw [hpool] at hsteady
      exact .withPool hsteady
    · rename_i pool b hpool
      cases he
      rw [hpool] at hsteady
      exact Frame.addBuf.after (Frame.withPool hsteady)

theorem construct_frame {res : Except Exn Nat} (he : w.construct elem count env = (w', res)) : Frame {} w w' := by
  unfold construct at he
  split at he
  · cases he
    exact .addBuf
  · exact allocateRaw_frame he

theorem adopt_frame (j elem size : Nat) : Frame { buf := fun k => k = j } w (w.adopt j elem size).1 := by
  refine (Frame.addBuf.before (transfer_frame w.bufs.length j)).mono (fun k s hs h => ?_) (fun _ _ _ h => h)
    (fun _ _ _ h => h) fun _ _ h => h
  have := lt_length hs
  exact h.resolve_left (by omega)

/-! ### Payload bytes -/

theorem modifyPayload_frame (f : List UInt8 → List UInt8) (hE : E.block b) :
    Frame E w (w.withPool (w.pool.modifyBlock b fun block => { block with payload := f block.payload })) where
  buf hs _ := ⟨_, hs, .refl _⟩
  read hr _ := hr
  block {c x} hx := by
    refine ⟨if c = b then { x with payload := f x.payload } else x, ?_, ?_, fun hc => ?_⟩
    · show (w.pool.modifyBlock b _).allBlocks[c]? = _
      rw [Pool.get_modifyBlock, hx]
      rfl
    · split <;> rfl
    · rw [if_neg]
      rintro rfl
      exact hc hE
  states hn := ⟨_, hn, id⟩
  writing hn _ := hn

theorem fill_frame {bytes : List UInt8} {h : WriteHandle} (hl : w.write l = some h) (he : w.fill l bytes = some w') :
    Frame { block := fun c => h.dataPtr = some c } w w' := by
  obtain ⟨h', b, block, hl', hb, -, -, rfl⟩ := fill_ok he
  rw [hl] at hl'
  cases hl'
  exact modifyPayload_frame (fun payload => bytes ++ payload.drop bytes.length) hb

theorem writeByte_frame {offset : Nat} {byte : UInt8} {h : WriteHandle} (hl : w.write l = some h)
    (he : w.writeByte l offset byte = some w') : Frame { block := fun c => h.dataPtr = some c } w w' := by
  obtain ⟨h', b, block, hl', hb, -, -, rfl⟩ := writeByte_ok he
  rw [hl] at hl'
  cases hl'
  exact modifyPayload_frame (fun payload => payload.set offset byte) hb

/-! ### Composite calls -/

/-- A write handle just made, and the buffer it was made on. -/
theorem getWriteHandle_slot (hi : Inv w []) (he : w.getWriteHandle i = some (w', .ok l)) :
    ∃ s n h, w.buf i = some s ∧ w'.buf i = some (s.withShared { s.shared with handleState := some n }) ∧
      w'.write l = some h ∧ h.dataPtr = s.shared.dataPtr ∧ h.state = some n := by
  obtain ⟨s, hs, ⟨x, hx, -⟩ | ⟨n, w₁, hready, -, ⟨x, hx, -⟩ | ⟨hl, -, -, -, rfl⟩⟩⟩ := getWriteHandle_cases hi he
  · cases hx
  · cases hx
  · cases hl
    exact ⟨s, n, _, hs, hready.self, write_addWrite.trans (if_pos (by rw [← hready.writes]; rfl)), rfl, rfl⟩

theorem getReadHandle_new (hi : Inv w []) (he : w.getReadHandle i = some (w', .ok j)) : j = w.reads.length := by
  obtain ⟨s, n, w₁, -, -, -, ⟨x, hx, -⟩ | ⟨hj, -⟩⟩ := getReadHandle_cases hi he
  · cases hx
  · cases hj
    rfl

/-- Bytes written through a handle that does not outlast them go to the block of its buffer. -/
theorem writeThrough_frame (hi : Inv w []) {t : Buf} (ht : w.buf j = some t) {bytes : List UInt8}
    (h₁ : w.getWriteHandle j = some (w₁, .ok l)) (h₂ : w₁.fill l bytes = some w') :
    Frame { block := fun c => t.shared.dataPtr = some c } w (w'.destroyWrite l) := by
  obtain ⟨s, m, h, hs, hs', hl, hptr, hm⟩ := getWriteHandle_slot hi h₁
  rw [ht] at hs
  cases hs
  have hl' : w'.write l = some h := by
    obtain ⟨h', b, block, -, -, -, -, rfl⟩ := fill_ok h₂
    exact hl
  have f := (destroyWrite_frame l).after ((getWriteHandle_frame h₁).trans (fill_frame hl h₂))
  refine f.mono (fun _ _ _ h => h.elim id id) (fun _ _ _ h => h.elim id id) (fun c _ _ h => ?_) fun q hq h => ?_
  · exact hptr.symm.trans (h.resolve_left id)
  · obtain ⟨-, s', hs'', hn⟩ := h.resolve_right id
    rw [hs'] at hs''
    cases hs''
    cases hn
    exact absurd hq (destroyWrite_ends hl' hm)

/-- The same for a copy between two buffers. -/
theorem copyInto_frame (hi : Inv w []) {t : Buf} (ht : w.buf j = some t) {res : Except Exn Unit}
    (he : w.copyInto i j n = some (w', res)) : Frame { block := fun c => t.shared.dataPtr = some c } w w' := by
  rcases copyInto_cases he with ⟨x, -, h₁⟩ | ⟨w₁, r, h₁, hrest⟩
  · exact (getReadHandle_frame h₁).widen _
  have f₁ := getReadHandle_frame h₁
  have hi₁ := hi.getReadHandle h₁
  have hnew := getReadHandle_new hi h₁
  -- slot `r` is new
  have hclose : ∀ {w₂ : World}, Frame { block := fun c => t.shared.dataPtr = some c } w₁ w₂ →
      Frame { block := fun c => t.shared.dataPtr = some c } w (w₂.destroyRead r) := by
    intro w₂ f₂
    refine ((f₁.before f₂).trans (destroyRead_frame r)).mono (fun _ _ _ h => h.elim id id) (fun k u hk h => ?_)
      (fun _ _ _ h => h.resolve_right id) fun _ _ h => h.elim id id
    have := lt_length hk
    rcases h with h | h
    · exact h
    · subst h
      omega
  rcases hrest with ⟨x, w₂, -, h₂, rfl⟩ | ⟨w₂, l, bytes, w₃, -, h₂, -, h₃, rfl⟩
  · refine hclose ((getWriteHandle_frame h₂).mono (fun _ _ _ h => h) (fun _ _ _ h => h) (fun _ _ _ h => h.elim)
      fun m _ h => ?_)
    obtain ⟨⟨l, hl⟩, -⟩ := h
    cases hl
  · obtain ⟨t', ht', hkept⟩ := f₁.buf ht id
    refine hclose ((writeThrough_frame hi₁ ht' h₂ h₃).mono (fun _ _ _ h => h) (fun _ _ _ h => h) (fun c _ _ h => ?_)
      fun _ _ h => h)
    exact hkept.dataPtr.symm.trans h

/-- A new buffer stands in a new slot, and nobody has held or read its block. -/
theorem allocateRaw_slot (hi : Inv w []) (he : w.allocateRaw elem count env = (w', .ok j)) :
    j = w.bufs.length ∧ ∃ b block, w'.buf j = some ⟨elem, count, SharedBuffer.allocated b block block.payloadSize⟩ ∧
      w'.pool.allBlocks[b]? = some block ∧ block.payloadSize = count * elem ∧ Spare w b := by
  rcases allocateRaw_cases hi he with ⟨x, hx, -⟩ | ⟨pool, b, block, hj, ha, hb, hn, rfl⟩
  · cases hx
  · cases hj
    obtain ⟨hleases, howners⟩ := hi.unread (hi.pool.allocate_ok ha).1
    exact ⟨rfl, b, block, buf_addBuf.trans (if_pos rfl), hb, hn, howners, hleases⟩

theorem construct_slot (hi : Inv w []) (he : w.construct elem count env = (w', .ok j)) :
    j = w.bufs.length ∧ ∃ t, w'.buf j = some t ∧ t.shared.handleState = none ∧
      ∀ b, t.shared.dataPtr = some b → Spare w b := by
  unfold construct at he
  split at he
  · cases he
    refine ⟨rfl, _, buf_addBuf.trans (if_pos rfl), rfl, fun b hb => ?_⟩
    cases hb
  · obtain ⟨hj, b, block, ht, -, -, hspare⟩ := allocateRaw_slot hi he
    refine ⟨hj, _, ht, rfl, fun c hc => ?_⟩
    cases hc
    exact hspare

theorem swapIn_frame (hij : i ≠ j) : Frame { buf := fun k => k = i ∨ k = j } w (w.swapIn i j count) := by
  refine Frame.twice (Frame.twice (assign_frame hij) ((setSize_frame i count).mono (fun _ _ _ h => .inl h)
    (fun _ _ _ h => h) (fun _ _ _ h => h) fun _ _ h => h)) ((destroyBuf_frame j).mono (fun _ _ _ h => .inr h)
    (fun _ _ _ h => h) (fun _ _ _ h => h) fun _ _ h => h)

theorem resize_frame (hi : Inv w []) {res : Except Exn Unit} (he : w.resize i count env = some (w', res)) :
    Frame { buf := fun k => k = i, block := Spare w } w w' := by
  obtain ⟨s, hs, ⟨-, rfl, -⟩ | ⟨-, -, rfl, -⟩ | ⟨-, -, ⟨x, -, ha⟩ | ⟨w₁, j, ha, hrest⟩⟩⟩ := resize_cases he
  · exact (Frame.refl _).widen _
  · exact (clear_frame i).mono (fun _ _ _ h => h) (fun _ _ _ h => h) (fun _ _ _ h => h.elim) fun _ _ h => h
  · exact (allocateRaw_frame ha).widen _
  have f₁ := allocateRaw_frame ha
  have hi₁ := hi.allocateRaw (hi.elem hs) ha
  obtain ⟨hj, b, block, ht, -, -, hspare⟩ := allocateRaw_slot hi ha
  have hlt := lt_length hs
  have hij : i ≠ j := by omega
  -- slot `j` is new, so what happens to it does not count
  have hclose : ∀ {w₂ w' : World}, Frame { block := Spare w } w₁ w₂ →
      Frame { buf := fun k => k = i ∨ k = j } w₂ w' → Frame { buf := fun k => k = i, block := Spare w } w w' := by
    intro w₂ w' f₂ f₃
    refine ((f₁.before f₂).trans f₃).mono (fun k t hk h => ?_) (fun _ _ _ h => h.elim id id)
      (fun _ _ _ h => h.resolve_right id) fun _ _ h => h.elim id id
    have := lt_length hk
    rcases h with h | h | h
    · exact h.elim
    · exact h
    · omega
  have hcopy : ∀ {w₂ : World} {n : Nat} {res : Except Exn Unit}, w₁.copyInto i j n = some (w₂, res) →
      Frame { block := Spare w } w₁ w₂ := by
    intro w₂ n res hc
    refine (copyInto_frame hi₁ ht hc).mono (fun _ _ _ h => h) (fun _ _ _ h => h) (fun c _ _ h => ?_) fun _ _ h => h
    cases h
    exact hspare
  rcases hrest with ⟨-, rfl, -⟩ | ⟨-, ⟨x, w₂, -, hc, rfl⟩ | ⟨w₂, hc, rfl, -⟩⟩
  · exact hclose ((Frame.refl w₁).widen _) (swapIn_frame hij)
  · exact hclose (hcopy hc) ((destroyBuf_frame j).mono (fun _ _ _ h => .inr h) (fun _ _ _ h => h) (fun _ _ _ h => h)
      fun _ _ h => h)
  · exact hclose (hcopy hc) (swapIn_frame hij)

theorem toCpu_frame (hi : Inv w []) {res : Except Exn (List UInt8)} (he : w.toCpu i = some (w', res)) :
    Frame {} w w' := by
  obtain ⟨s, -, ⟨-, rfl, -⟩ | ⟨-, ⟨x, -, h₁⟩ | ⟨w₁, r, bytes, -, h₁, -, rfl⟩⟩⟩ := toCpu_cases he
  · exact .refl _
  · exact getReadHandle_frame h₁
  · have hnew := getReadHandle_new hi h₁
    refine ((getReadHandle_frame h₁).before (destroyRead_frame r)).mono (fun _ _ _ h => h) (fun k t hk h => ?_)
      (fun _ _ _ h => h) fun _ _ h => h
    have := lt_length hk
    subst h
    omega

theorem clone_frame (hi : Inv w []) {res : Except Exn Nat} (he : w.clone i env = some (w', res)) :
    Frame { block := Spare w } w w' := by
  obtain ⟨s, hs, ⟨x, -, ha⟩ | ⟨w₁, j, ha, hrest⟩⟩ := clone_cases he
  · exact (construct_frame ha).widen _
  have f₁ := construct_frame ha
  have hi₁ := hi.construct (hi.elem hs) ha
  obtain ⟨hj, t, ht, -, hspare⟩ := construct_slot hi ha
  have hcopy : ∀ {w₂ : World} {n : Nat} {res : Except Exn Unit}, w₁.copyInto i j n = some (w₂, res) →
      Frame { block := Spare w } w w₂ := by
    intro w₂ n res hc
    exact f₁.before ((copyInto_frame hi₁ ht hc).mono (fun _ _ _ h => h) (fun _ _ _ h => h)
      (fun c _ _ h => hspare c h) fun _ _ h => h)
  rcases hrest with ⟨-, rfl, -⟩ | ⟨-, ⟨x, w₂, -, hc, rfl⟩ | ⟨-, hc⟩⟩
  · exact f₁.widen _
  · refine ((hcopy hc).trans (destroyBuf_frame j)).mono (fun k t hk h => ?_) (fun _ _ _ h => h.elim id id)
      (fun _ _ _ h => h.resolve_right id) fun _ _ h => h.elim id id
    have := lt_length hk
    rcases h with h | h
    · exact h
    · subst h
      omega
  · exact hcopy hc

theorem setPromotedBuffer_frame (k j : Nat) :
    Frame { buf := fun m => m = j, read := fun m => m = k } w (w.setPromotedBuffer k j) := by
  unfold setPromotedBuffer
  split
  · rename_i h s hr hs
    have f : Frame { buf := fun m => m = j, read := fun m => m = k } w
        (w.setRead k (some { h with promotedBuffer := some s.impl })) := Frame.setRead _ hr rfl
    exact f.twice (Frame.setBuf (w := w.setRead k _) _ hs (.inl rfl))
  · exact (Frame.refl w).widen _

theorem promote_frame (hi : Inv w []) {source : List UInt8} {res : Except Exn Nat}
    (he : w.promote elem count source env = some (w', res)) : Frame { block := Spare w } w w' := by
  rcases promote_cases he with ⟨-, rfl, -⟩ | ⟨-, ⟨x, -, ha⟩ | ⟨w₁, j, ha, hrest⟩⟩
  · exact (Frame.refl _).widen _
  · exact (construct_frame ha).widen _
  have f₁ := construct_frame ha
  have hi₁ := hi.construct Nat.one_pos ha
  obtain ⟨hj, t, ht, -, hspare⟩ := construct_slot hi ha
  -- slot `j` is new
  have hclose : ∀ {w₂ w' : World}, Frame { block := Spare w } w₁ w₂ →
      Frame { buf := fun m => m = j, read := fun m => w.read m = none } w₂ w' → Frame { block := Spare w } w w' := by
    intro w₂ w' f₂ f₃
    refine ((f₁.before f₂).trans f₃).mono (fun k t hk h => ?_) (fun k t hk h => ?_)
      (fun _ _ _ h => h.resolve_right id) fun _ _ h => h.elim id id
    · have := lt_length hk
      rcases h with h | h
      · exact h
      · subst h
        omega
    · have hnone := h.resolve_left id
      change w.read k = none at hnone
      rw [hk] at hnone
      cases hnone
  have hdestroy : ∀ {w₂ : World}, Frame { buf := fun m => m = j, read := fun m => w.read m = none } w₂
      (w₂.destroyBuf j) := by
    intro w₂
    exact (destroyBuf_frame j).mono (fun _ _ _ h => h) (fun _ _ _ h => h.elim) (fun _ _ _ h => h) fun _ _ h => h
  rcases hrest with ⟨x, w₂, -, h₂, rfl⟩ | ⟨w₂, l, w₃, h₂, h₃, hrest⟩
  · refine hclose ((getWriteHandle_frame h₂).mono (fun _ _ _ h => h) (fun _ _ _ h => h)
      (fun _ _ _ h => h.elim) fun _ _ h => ?_) hdestroy
    obtain ⟨⟨l, hl⟩, -⟩ := h
    cases hl
  have f₄ : Frame { block := Spare w } w₁ (w₃.destroyWrite l) :=
    (writeThrough_frame hi₁ ht h₂ h₃).mono (fun _ _ _ h => h) (fun _ _ _ h => h) (fun c _ _ h => hspare c h)
      fun _ _ h => h
  rcases hrest with ⟨x, w₄, -, h₄, rfl⟩ | ⟨w₄, r, h₄, rfl, -⟩
  · exact hclose ((getReadHandle_frame h₄).after f₄) hdestroy
  · have hnew := getReadHandle_new (((hi₁.getWriteHandle h₂).fill h₃).destroyWrite l) h₄
    refine hclose ((getReadHandle_frame h₄).after f₄) ((setPromotedBuffer_frame r j).mono (fun _ _ _ h => h)
      (fun k _ _ h => ?_) (fun _ _ _ h => h) fun _ _ h => h)
    subst h
    show w.read k = none
    cases hk : w.read k with
    | none => rfl
    | some t =>
      have hk₄ := f₄.read (f₁.read hk id) id
      rw [hnew, read, get_length] at hk₄
      cases hk₄

/-! ### The backend -/

theorem steady_of_touched {p q : Pool} (h : Touched p q) : p.Steady q := by
  intro b x hx
  obtain ⟨f, hf, hk⟩ := h.get b
  obtain ⟨-, hn, -, hp⟩ := hk x
  exact ⟨f x, by rw [hf, hx]; rfl, hp, hn⟩

theorem createDescriptor_steady (hi : Inv w []) {e : DescriptorEnv} {d : Option SharedBufferDescriptor}
    (he : w.createDescriptorWithEndpoint impl gid e = (w', d)) : Frame {} w w' := by
  rcases createDescriptor_cases hi he with ⟨rfl, -⟩ | ⟨s, pool, -, -, rfl, ht, -⟩
  · exact .refl _
  · refine (Frame.withPool (w := w.finalizeWriteHandle s.shared) ?_).after (finalizeWriteHandle_steady s.shared)
    rw [pool_finalizeWriteHandle]
    exact steady_of_touched ht

/-! ### Where a buffer goes -/

theorem buf_reset_ne (hk : k ≠ i) : (w.reset i).buf k = w.buf k := by
  unfold reset
  split
  · rename_i s hs
    exact (buf_setBuf (w := w.effects _) hs).trans (if_neg hk)
  · rfl

theorem buf_transfer (hs : w.buf i = some s) (ht : w.buf j = some t) (hij : i ≠ j) :
    (w.transfer i j).buf i = some (s.withShared t.shared) := by
  unfold transfer
  rw [hs, ht]
  have ht' : (w.setBuf i (some (s.withShared t.shared.moveFrom.1))).buf j = some t :=
    ((buf_setBuf hs).trans (if_neg (Ne.symm hij))).trans ht
  exact ((buf_setBuf ht').trans (if_neg hij)).trans ((buf_setBuf hs).trans (if_pos rfl))

theorem buf_transfer_source (hs : w.buf i = some s) (ht : w.buf j = some t) (hij : i ≠ j) :
    (w.transfer i j).buf j = some (t.withShared {}) := by
  unfold transfer
  rw [hs, ht]
  have ht' : (w.setBuf i (some (s.withShared t.shared.moveFrom.1))).buf j = some t :=
    ((buf_setBuf hs).trans (if_neg (Ne.symm hij))).trans ht
  exact (buf_setBuf ht').trans (if_pos rfl)

theorem buf_assign (hs : w.buf i = some s) (ht : w.buf j = some t) (hij : i ≠ j) :
    (w.assign i j).buf i = some (s.withShared t.shared) := by
  unfold assign
  rw [if_neg hij]
  have h := buf_transfer (buf_reset hs) ((buf_reset_ne hij.symm).trans ht) hij
  exact h

theorem buf_assign_source (hs : w.buf i = some s) (ht : w.buf j = some t) (hij : i ≠ j) :
    (w.assign i j).buf j = some (t.withShared {}) := by
  unfold assign
  rw [if_neg hij]
  exact buf_transfer_source (buf_reset hs) ((buf_reset_ne hij.symm).trans ht) hij

theorem buf_setSize {size : Nat} (hs : w.buf i = some s) : (w.setSize i size).buf i = some (s.withSize size) := by
  unfold setSize
  rw [hs]
  exact (buf_setBuf hs).trans (if_pos rfl)

theorem buf_clear (hs : w.buf i = some s) : (w.clear i).buf i = some ((s.withShared {}).withSize 0) :=
  buf_setSize (buf_reset hs)

theorem buf_destroyBuf (hs : w.buf i = some s) : (w.destroyBuf i).buf i = none :=
  (buf_setBuf (buf_reset hs)).trans (if_pos rfl)

/-- The buffer that `resize` puts in place. -/
theorem buf_swapIn (count : Nat) (hs : w.buf i = some s) (ht : w.buf j = some t) (hij : i ≠ j) :
    ∃ s', (w.swapIn i j count).buf i = some s' ∧ s'.shared = t.shared ∧ s'.impl.size = count ∧ s'.elem = s.elem := by
  refine ⟨(s.withShared t.shared).withSize count, ?_, rfl, rfl, rfl⟩
  unfold swapIn destroyBuf
  have hi : ((w.assign i j).setSize i count).buf i = some ((s.withShared t.shared).withSize count) :=
    buf_setSize (buf_assign hs ht hij)
  have hj : ((w.assign i j).setSize i count).buf j = some (t.withShared {}) := by
    unfold setSize
    rw [buf_assign hs ht hij]
    exact ((buf_setBuf (buf_assign hs ht hij)).trans (if_neg hij.symm)).trans (buf_assign_source hs ht hij)
  exact ((buf_setBuf (buf_reset hj)).trans (if_neg hij)).trans ((buf_reset_ne hij).trans hi)

end World

/-! ### Steps -/

/-- The scope of a call. -/
def Op.scope (w : World) : Op → Scope
  | .adopt j _ _ | .destroyBuf j | .clear j => { buf := fun k => k = j }
  | .assign i j => { buf := fun k => i ≠ j ∧ (k = i ∨ k = j) }
  | .resize i _ _ => { buf := fun k => k = i, block := w.Spare }
  | .clone _ _ | .promote _ _ _ _ => { block := w.Spare }
  | .fromOutputBuffer i | .getWriteHandle i =>
    { writing := fun n => ∃ w' l s, w.getWriteHandle i = some (w', .ok l) ∧ w'.buf i = some s ∧
        s.shared.handleState = some n }
  | .moveRead j | .destroyRead j => { read := fun k => k = j }
  | .assignRead i j => { read := fun k => i ≠ j ∧ (k = i ∨ k = j) }
  | .writeByte l _ _ => { block := fun b => ∃ h, w.write l = some h ∧ h.dataPtr = some b }
  | _ => {}

theorem World.getWriteHandle_scope {res : Except Exn Nat} (he : w.getWriteHandle i = some (w', res)) :
    Frame (Op.scope w (.getWriteHandle i)) w w' := by
  refine (World.getWriteHandle_frame he).mono (fun _ _ _ h => h) (fun _ _ _ h => h) (fun _ _ _ h => h) fun n _ h => ?_
  obtain ⟨⟨l, rfl⟩, s', hs', hn⟩ := h
  exact ⟨w', l, s', he, hs', hn⟩

/-- A call changes nothing off its scope. -/
theorem exec_frame (hi : Inv w []) {op : Op} {out : Out} (he : exec w op = some (w', out)) :
    Frame (op.scope w) w w' := by
  cases exec_ran he with
  | construct _ hc => exact World.construct_frame hc
  | @adopt j elem size => exact World.adopt_frame j elem size
  | @destroyBuf i => exact World.destroyBuf_frame i
  | @assign i j =>
    by_cases hij : i = j
    · unfold World.assign
      rw [if_pos hij]
      exact (Frame.refl w).widen _
    · exact (World.assign_frame hij).mono (fun _ _ _ h => ⟨hij, h⟩) (fun _ _ _ h => h) (fun _ _ _ h => h)
        fun _ _ h => h
  | resize h => exact World.resize_frame hi h
  | @clear i => exact World.clear_frame i
  | clone h => exact World.clone_frame hi h
  | toCpu h => exact World.toCpu_frame hi h
  | fromOutputBuffer hp =>
    obtain ⟨rfl, -⟩ | hp := World.fromOutputBuffer_cases hp
    · exact (Frame.refl _).widen _
    · exact World.getWriteHandle_scope hp
  | fromInputBuffer hp =>
    obtain ⟨rfl, -⟩ | hp := World.fromInputBuffer_cases hp
    · exact .refl _
    · exact World.getReadHandle_frame hp
  | promote _ _ h => exact World.promote_frame hi h
  | getReadHandle h => exact World.getReadHandle_frame h
  | getWriteHandle hp => exact World.getWriteHandle_scope hp
  | @finalizeWriteHandle _ s => exact World.finalizeWriteHandle_steady s.shared
  | holdReaderReference h => exact World.holdReaderReference_frame h
  | @moveRead j =>
    have hnew : (w.addRead {}).read w.reads.length = some {} := World.read_addRead.trans (if_pos rfl)
    refine (Frame.addRead.before (World.transferRead_frame hnew j)).mono (fun _ _ _ h => h) (fun k t hk h => ?_)
      (fun _ _ _ h => h) fun _ _ h => h
    have := lt_length hk
    exact h.resolve_left (by omega)
  | @assignRead i j _ _ hr =>
    split
    · exact (Frame.refl w).widen _
    · rename_i hij
      exact ((World.releaseRead_frame i).trans (World.transferRead_frame (World.releaseRead_read hr) j)).mono
        (fun _ _ _ h => h.elim id id) (fun _ _ _ h => ⟨hij, h.elim .inl id⟩) (fun _ _ _ h => h.elim id id)
        fun _ _ h => h.elim id id
  | @destroyRead j => exact World.destroyRead_frame j
  | moveWrite => exact (World.transferWrite_frame _ _).after (.withWrites _)
  | @assignWrite i =>
    split
    · exact .refl w
    · exact (World.transferWrite_frame _ _).after (World.releaseWrite_frame i)
  | @destroyWrite j => exact World.destroyWrite_frame j
  | writeByte hw =>
    obtain ⟨h', b, block, hl, -⟩ := World.writeByte_ok hw
    exact (World.writeByte_frame hl hw).mono (fun _ _ _ h => h) (fun _ _ _ h => h) (fun _ _ _ h => ⟨_, hl, h⟩)
      fun _ _ h => h
  | onDiscoveringEndpoint =>
    exact ⟨fun hs _ => ⟨_, hs, .refl _⟩, fun hr _ => hr, fun hx => ⟨_, hx, rfl, fun _ => rfl⟩, fun hn => ⟨_, hn, id⟩,
      fun hn _ => hn⟩
  | createDescriptor h => exact World.createDescriptor_steady hi h
  | outside => exact .withPool .outsideStep

end

end Proc

end MemfdBuffer
