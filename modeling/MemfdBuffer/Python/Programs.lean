import MemfdBuffer.Python.Runs

/-!
# What a Python program can rely on

Whatever a program does with buffers, accesses and views, and in whatever order it lets go of them: no call meets a
dead buffer or handle, a write has its buffer to itself until it is published, and what is let go of is back in the
pool.
-/

namespace MemfdBuffer.Python

open Proc

/-- The view that the call is on has been made. -/
def PyOp.Names (s : PyWrite) : PyOp → Prop
  | .derive v | .release v => v < s.views.length
  | _ => True

/-- A reference that the program can have. -/
def System.Has (s : System) (o : Nat) : Prop := ∃ x, s.buffer o = some x ∧ 0 < x.refs

/-- The program has what the call is on. -/
def System.Allows (s : System) : Call → Prop
  | .allocateBuffer _ _ _ | .otherBuffer _ | .onDiscoveringEndpoint _ _ | .outside _ => True
  | .reference o | .unreference o | .readBuffer o _ | .writeBuffer o _ | .publish o _ _ => s.Has o
  | .deriveView k | .releaseView k | .load k _ => ∃ a, s.access k = some a
  | .scope k op => ∃ c, s.scope k = some c ∧ (c.dropped = false ∨ onView op = true) ∧ PyOp.Names c.py op
  | .dropScope k => ∃ c, s.scope k = some c ∧ c.dropped = false
  | .store k v _ _ => ∃ c, s.scope k = some c ∧ c.py.Live v

variable {s s' : System} {op : Call} {o i k l n b : Nat} {res : Except Raised Value}

theorem names_isSome {py : PyWrite} {op : PyOp} : (py.exec op).isSome ↔ PyOp.Names py op := by
  cases op with
  | derive v =>
    simp only [PyWrite.exec, PyWrite.derive, PyOp.Names]
    cases hv : py.views[v]? with
    | none => simpa using List.getElem?_eq_none_iff.1 hv
    | some view =>
      refine ⟨fun _ => (List.getElem?_eq_some_iff.1 hv).1, fun _ => ?_⟩
      rw [Option.bind_eq_bind, Option.bind_some]
      split <;> rfl
  | release v =>
    simp only [PyWrite.exec, PyOp.Names]
    split <;> simp_all
  | exit =>
    rw [PyWrite.exec_exit]
    exact ⟨fun _ => trivial, fun _ => rfl⟩
  | byteCount =>
    refine ⟨fun _ => trivial, fun _ => ?_⟩
    simp only [PyWrite.exec]
    split <;> rfl
  | _ => exact ⟨fun _ => trivial, fun _ => rfl⟩

theorem Inv.exec (h : Inv s) (ha : s.Allows op) : ∃ s' res, s.exec op = some (s', res) ∧ Inv s' := by
  cases op with
  | allocateBuffer byteCount env taken => exact h.allocateBuffer byteCount env taken
  | otherBuffer bytes =>
    refine ⟨_, _, rfl, h.newBuffer h.reach h.homed (.refl _) (fun _ hT => hT.elim) (fun _ => id)
      (fun _ => id) Nat.one_pos
      (fun i hi => by cases hi) fun _ hT => hT.elim⟩
  | reference o =>
    obtain ⟨x, hb, hrefs⟩ := ha
    exact h.reference hb hrefs
  | unreference o =>
    obtain ⟨x, hb, hrefs⟩ := ha
    exact h.unreference hb hrefs
  | readBuffer o e =>
    obtain ⟨x, hb, hrefs⟩ := ha
    exact h.readBuffer hb hrefs e
  | deriveView k =>
    obtain ⟨a, hk⟩ := ha
    exact h.deriveView hk
  | releaseView k =>
    obtain ⟨a, hk⟩ := ha
    exact h.releaseView hk
  | load k offset =>
    obtain ⟨a, hk⟩ := ha
    obtain ⟨res, he⟩ := h.load hk offset
    exact ⟨s, res, he, h⟩
  | writeBuffer o e =>
    obtain ⟨x, hb, hrefs⟩ := ha
    exact h.writeBuffer hb hrefs e
  | scope k op =>
    obtain ⟨c, hk, hop, hnames⟩ := ha
    obtain ⟨⟨py, v⟩, he⟩ := Option.isSome_iff_exists.1 (names_isSome.2 hnames)
    exact h.scopeCall hk hop he
  | dropScope k =>
    obtain ⟨c, hk, hdropped⟩ := ha
    exact h.dropScope hk hdropped
  | store k v offset byte =>
    obtain ⟨c, hk, view, hv, hlive⟩ := ha
    exact h.store hk hv hlive offset byte
  | publish o gid e =>
    obtain ⟨x, hb, hrefs⟩ := ha
    exact h.publish hb hrefs gid e
  | onDiscoveringEndpoint gid supported =>
    have he : Proc.exec s.world (.onDiscoveringEndpoint gid supported) =
        some (s.world.onDiscoveringEndpoint gid supported, .done) := rfl
    exact ⟨_, .ok .none, by simp only [System.exec, System.call_of he]; rfl, h.bare rfl he⟩
  | outside act =>
    have he : Proc.exec s.world (.outside act) = some (s.world.withPool (s.world.pool.outsideStep act), .done) := rfl
    exact ⟨_, .ok .none, by simp only [System.exec, System.call_of he]; rfl, h.bare rfl he⟩

/-- Nothing is on what the program does not have. -/
theorem allows_of_exec (he : s.exec op = some (s', res)) : s.Allows op := by
  have hhas : ∀ {α : Type} {o : Nat} {f : BufferObject → Option α} {v : α},
      ((s.buffer o).bind fun x => (guard (0 < x.refs) : Option Unit).bind fun _ => f x) = some v → s.Has o := by
    intro α o f v hv
    obtain ⟨x, hx, hv⟩ := Option.bind_eq_some_iff.1 hv
    obtain ⟨u, hg, -⟩ := Option.bind_eq_some_iff.1 hv
    exact ⟨x, hx, (Option.guard_eq_some' _).1 hg⟩
  cases op with
  | allocateBuffer byteCount env taken => trivial
  | otherBuffer bytes => trivial
  | reference o => exact hhas he
  | unreference o => exact hhas he
  | readBuffer o e => exact hhas he
  | deriveView k =>
    obtain ⟨a, ha, -⟩ := Option.bind_eq_some_iff.1 he
    exact ⟨a, ha⟩
  | releaseView k =>
    obtain ⟨a, ha, -⟩ := Option.bind_eq_some_iff.1 he
    exact ⟨a, ha⟩
  | load k offset =>
    obtain ⟨a, ha, -⟩ := Option.bind_eq_some_iff.1 he
    exact ⟨a, ha⟩
  | writeBuffer o e => exact hhas he
  | scope k op =>
    obtain ⟨c, hc, he⟩ := Option.bind_eq_some_iff.1 he
    obtain ⟨u, hg, he⟩ := Option.bind_eq_some_iff.1 he
    obtain ⟨v, hv, -⟩ := Option.bind_eq_some_iff.1 he
    exact ⟨c, hc, (Option.guard_eq_some' _).1 hg, names_isSome.1 (by rw [hv]; rfl)⟩
  | dropScope k =>
    obtain ⟨c, hc, he⟩ := Option.bind_eq_some_iff.1 he
    obtain ⟨u, hg, -⟩ := Option.bind_eq_some_iff.1 he
    exact ⟨c, hc, (Option.guard_eq_some' _).1 hg⟩
  | store k v offset byte =>
    obtain ⟨c, hc, he⟩ := Option.bind_eq_some_iff.1 he
    obtain ⟨view, hv, he⟩ := Option.bind_eq_some_iff.1 he
    obtain ⟨u, hg, -⟩ := Option.bind_eq_some_iff.1 he
    exact ⟨c, hc, view, hv, (Option.guard_eq_some' _).1 hg⟩
  | publish o gid e => exact hhas he
  | onDiscoveringEndpoint gid supported => trivial
  | outside act => trivial

theorem Inv.step (h : Inv s) (hs : s.step op = some s') : Inv s' := by
  obtain ⟨⟨s₁, res⟩, he, rfl⟩ := Option.map_eq_some_iff.1 hs
  obtain ⟨s₂, res', he', hinv⟩ := h.exec (allows_of_exec he)
  cases he.symm.trans he'
  exact hinv

/-- A buffer with a byte stored. -/
def filled : List Call := [.allocateBuffer 4 {} (.ok ()), .writeBuffer 0 {}, .scope 0 (.enter .ok), .store 0 0 1 7]

def filledEnd : System := (Machine.run System.step {} filled).getD {}

theorem filled_run : Machine.run System.step {} filled = some filledEnd := rfl

theorem init_empty : System.Init {} := ⟨⟨0, 1, "", rfl⟩, rfl, rfl, rfl⟩

theorem filled_reachable : System.Reachable filledEnd := Machine.Reach.run (.start init_empty) filled_run

theorem System.Reachable.inv (h : System.Reachable s) : Inv s :=
  Machine.ReachIf.inv (fun _ => Init.inv) (fun _ _ _ hi _ => hi.step) h

/-- A call goes wrong for no other reason than that the program does not have what it names: no buffer, handle, view
or block that a call is on is gone before it. -/
theorem calls_defined (h : System.Reachable s) : (s.exec op).isSome ↔ s.Allows op := by
  refine ⟨fun hsome => ?_, fun ha => ?_⟩
  · obtain ⟨⟨s', res⟩, he⟩ := Option.isSome_iff_exists.1 hsome
    exact allows_of_exec he
  · obtain ⟨s', res, he, -⟩ := h.inv.exec ha
    rw [he]
    rfl

theorem calls_defined_filled : (filledEnd.exec (.dropScope 0)).isSome :=
  (calls_defined filled_reachable).2 ⟨_, rfl, rfl⟩

/-! ### One writer to an object -/

namespace System

/-- Scope `k` is open on object `o`. -/
def Writing (s : System) (k o : Nat) : Prop :=
  ∃ c, s.scope k = some c ∧ c.py.native.closed = false ∧ c.py.native.owner = some o

/-- The write of scope `k` has not been finalized, as publication does. -/
def Unpublished (s : System) (k : Nat) : Prop :=
  ∃ c n, s.scope k = some c ∧ c.py.native.handle.state = some n ∧ s.world.InUse n

/-- Access `k` reads object `o`. -/
def Reading (s : System) (k o : Nat) : Prop := ∃ a, s.access k = some a ∧ a.owner = o

/-- Block `b` is the memory of object `o`, or of the copy that one of its read accesses has. -/
def Holds (s : System) (o b : Nat) : Prop :=
  (∃ i t, s.Backs o i ∧ s.world.buf i = some t ∧ t.shared.dataPtr = some b) ∨
    ∃ k a r impl, s.access k = some a ∧ a.owner = o ∧ s.world.read a.handle = some r ∧ r.promotedBuffer = some impl ∧
      impl.sharedBuffer.dataPtr = some b

end System

theorem Inv.backs_unique {j : Nat} (hi : s.Backs o i) (hj : s.Backs o j) : i = j := by
  obtain ⟨x, hx, hi⟩ := hi
  obtain ⟨y, hy, hj⟩ := hj
  cases hx.symm.trans hy
  cases hi.symm.trans hj
  rfl

theorem Inv.writing (h : Inv s) (hk : s.Writing k o) : ∃ c i n b, s.scope k = some c ∧ c.py.native.closed = false ∧
    WriteAt s c o i n b := by
  obtain ⟨c, hk, hopen, howner⟩ := hk
  obtain ⟨p, i, n, b, hat⟩ := h.writes.at_ hk hopen
  cases howner.symm.trans hat.owner
  exact ⟨c, i, n, b, hk, hopen, hat⟩

/-- Two buffers are never on one block. -/
theorem Inv.buf_unique {j : Nat} {t t' : Buf} {x : SharedBufferBlock} (h : Inv s)
    (hx : s.world.pool.allBlocks[b]? = some x)
    (ht : s.world.buf i = some t) (hb : t.shared.dataPtr = some b) (ht' : s.world.buf j = some t')
    (hb' : t'.shared.dataPtr = some b) : i = j := by
  by_contra hne
  have hown := h.inv.owned hx
  simp only [List.count_nil, Nat.add_zero, World.owners, World.bufSum] at hown
  have hle := Slots.add_le_total (f := fun t : Buf => points (·.dataPtr) b t.shared) ht ht' hne
  rw [points_eq_one hb, points_eq_one hb'] at hle
  split at hown <;> omega

/-- Two open scopes are never on one block: the state of its buffer has one write handle. -/
theorem Inv.scope_unique {c d : WriteScope} {p j m : Nat} (h : Inv s) (hk : s.scope k = some c)
    (hopen : c.py.native.closed = false) (hat : WriteAt s c o i n b) (hl : s.scope l = some d)
    (hopen' : d.py.native.closed = false) (hat' : WriteAt s d p j m b) : k = l := by
  obtain ⟨t, ht, hb, hn⟩ := hat.buf
  obtain ⟨t', ht', hb', hm⟩ := hat'.buf
  obtain ⟨x, hx, -⟩ := hat.size
  cases h.buf_unique hx ht hb ht' hb'
  cases ht.symm.trans ht'
  cases hn.symm.trans hm
  by_contra hne
  have hhandle : c.handle ≠ d.handle := fun heq => hne (h.writes.unique hk hl hopen hopen' heq)
  have hle := Slots.add_le_total (f := points (·.state) n) hat.handle hat'.handle hhandle
  rw [points_eq_one hat.state, points_eq_one hat'.state] at hle
  obtain ⟨st, hst⟩ : ∃ st, s.world.states[n]? = some st :=
    ⟨_, List.getElem?_eq_getElem ((h.inv.writes hat.handle).state hat.state)⟩
  have hone := (h.inv.states hst).one
  unfold World.writers at hone
  omega

/-- Write handle `l` is alone on block `b`: no other handle is on it, whether writing or done, and the pool does not have
it. -/
structure Alone (w : World) (l b : Nat) : Prop where
  writer {l' : Nat} {h : WriteHandle} : w.write l' = some h → h.dataPtr = some b → l' = l
  reader {j : Nat} : ¬ w.Reads j b
  taken : ∃ block, w.pool.allBlocks[b]? = some block ∧ block.inUse = true

/-- One write scope to an object at a time; and until the object is published nothing reads it, and the scope's handle is
alone on its block. -/
theorem writes_exclusive (h : System.Reachable s) (hk : s.Writing k o) : (∀ l, s.Writing l o → k = l) ∧
    (s.Unpublished k → (∀ l, ¬ s.Reading l o) ∧ ∃ c b, s.scope k = some c ∧ c.py.native.handle.dataPtr = some b ∧
      Alone s.world c.handle b) := by
  obtain ⟨c, i, n, b, hk, hopen, hat⟩ := h.inv.writing hk
  obtain ⟨t, ht, hptr, hn⟩ := hat.buf
  refine ⟨fun l hl => ?_, fun hu => ?_⟩
  · obtain ⟨d, j, m, b', hl, hopen', hat'⟩ := h.inv.writing hl
    obtain ⟨t', ht', hptr', hm⟩ := hat'.buf
    cases Inv.backs_unique hat.backs hat'.backs
    cases ht.symm.trans ht'
    cases hptr.symm.trans hptr'
    exact h.inv.scope_unique hk hopen hat hl hopen' hat'
  · have hexcl : Exclusive s.world := h.inv.homed.exclusive h.inv.inv
    obtain ⟨c', m, hk', hm, hu⟩ := hu
    cases hk.symm.trans hk'
    have hwrites : s.world.Writes c.handle b := ⟨_, m, hat.handle, hat.dataPtr, hm, hu⟩
    refine ⟨fun l hl => ?_, c, b, hk, hat.dataPtr, fun {l' x} hx hb => ?_, hexcl.reader hwrites, hexcl.taken hwrites⟩
    · obtain ⟨a, hl, rfl⟩ := hl
      obtain ⟨-, r, b', hat'⟩ := h.inv.reads.at_ hl
      rcases hat'.held with ⟨j, t', hj, ht', hptr'⟩ | ⟨hno, -⟩
      · cases Inv.backs_unique hat.backs hj
        cases ht.symm.trans ht'
        cases hptr.symm.trans hptr'
        exact hexcl.reader hwrites ⟨r, hat'.handle, hat'.dataPtr⟩
      · exact hno i hat.backs
    · obtain ⟨l, d, hl, hopen', rfl⟩ := h.inv.writes.covered hx
      obtain ⟨p, j, m', b', hat'⟩ := h.inv.writes.at_ hl hopen'
      cases hx.symm.trans hat'.handle
      cases hb.symm.trans hat'.dataPtr
      cases h.inv.scope_unique hk hopen hat hl hopen' hat'
      cases hk.symm.trans hl
      rfl

theorem writes_exclusive_filled : (∀ l, filledEnd.Writing l 0 → 0 = l) ∧ (∀ l, ¬ filledEnd.Reading l 0) ∧
    Alone filledEnd.world 0 0 := by
  have hwriting : filledEnd.Writing 0 0 := ⟨_, rfl, rfl, rfl⟩
  obtain ⟨hone, hread⟩ := writes_exclusive filled_reachable hwriting
  obtain ⟨hread, c, b, hk, hb, halone⟩ := hread ⟨_, _, rfl, rfl, _, rfl, rfl⟩
  cases hk
  cases hb
  exact ⟨hone, hread, halone⟩

/-! ### What is let go of is given back -/

/-- A block is in use exactly as long as a live object has it, for its memory or for a copy that is read; and an object
is alive only while the program or an access refers to it. -/
theorem in_use_iff {block : SharedBufferBlock} (h : System.Reachable s) (hb : s.world.pool.allBlocks[b]? = some block) :
    block.inUse = true ↔ ∃ o, (s.Has o ∨ s.owned o = true) ∧ s.Holds o b := by
  have hown := h.inv.inv.owned hb
  simp only [List.count_nil, Nat.add_zero] at hown
  constructor
  · intro huse
    rw [if_pos huse] at hown
    unfold World.owners World.bufSum at hown
    by_cases hbufs : 0 < Slots.total (fun t : Buf => points (·.dataPtr) b t.shared) s.world.bufs
    · obtain ⟨i, t, ht, hpos⟩ := Slots.exists_of_total_pos hbufs
      obtain ⟨o, hback⟩ := h.inv.buffers.covered ht
      obtain ⟨x, hx, -⟩ := id hback
      exact ⟨o, (h.inv.kept o x hx).imp (fun hrefs => ⟨x, hx, hrefs⟩) id, .inl ⟨i, t, hback, ht, points_pos.1 hpos⟩⟩
    · obtain ⟨j, r, hr, hpos⟩ := Slots.exists_of_total_pos
        (f := promoted (points (·.dataPtr) b)) (l := s.world.reads) (by omega)
      obtain ⟨k, a, hk, rfl⟩ := h.inv.reads.covered hr
      unfold promoted at hpos
      cases himpl : r.promotedBuffer with
      | none =>
        rw [himpl] at hpos
        cases hpos
      | some impl =>
        rw [himpl, Option.elim_some] at hpos
        exact ⟨a.owner, .inr (System.owned_iff.2 (.inl ⟨k, a, hk, rfl⟩)),
          .inr ⟨k, a, r, impl, hk, rfl, hr, himpl, points_pos.1 hpos⟩⟩
  · rintro ⟨o, -, hholds⟩
    obtain ⟨x, hx, hptr⟩ : ∃ x, s.world.Holds x ∧ x.dataPtr = some b := by
      rcases hholds with ⟨i, t, -, ht, hptr⟩ | ⟨k, a, r, impl, -, -, hr, himpl, hptr⟩
      · exact ⟨t.shared, .buf ht, hptr⟩
      · exact ⟨impl.sharedBuffer, .inr ⟨a.handle, r, impl, hr, himpl, rfl⟩, hptr⟩
    have hle := World.Holds.le_bufSum (f := points (·.dataPtr) b) hx
    rw [points_eq_one hptr] at hle
    unfold World.owners at hown
    by_contra hno
    rw [if_neg hno] at hown
    omega

theorem in_use_iff_filled : ∃ block, filledEnd.world.pool.allBlocks[0]? = some block ∧ block.inUse = true ∧
    ∃ o, (filledEnd.Has o ∨ filledEnd.owned o = true) ∧ filledEnd.Holds o 0 :=
  ⟨_, rfl, rfl, (in_use_iff filled_reachable rfl).1 rfl⟩

end MemfdBuffer.Python
