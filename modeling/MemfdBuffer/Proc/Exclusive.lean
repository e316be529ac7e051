import MemfdBuffer.Proc.Frame

/-!
# One writer to a block

Exclusion is kept for each buffer in its `HandleState`, while blocks are recycled for the whole pool. The two agree
as long as a state with a writer stays with its buffer and the buffer with its block: `Homed`. `resize` to a positive
size keeps to this, since its read handle is refused while there is a writer; `clear`, `resize(0)`, move assignment
and destruction do not ask.
-/

namespace MemfdBuffer.Proc

open Slots

/-- The buffer in slot `i` has a writer that is not finalized. -/
def World.writing (w : World) (i : Nat) : Bool := (w.buf i).any fun s => (w.stateOf s.shared).state == .inUse

/-- The call gives up the block of a buffer that has a writer. -/
def Op.abandons (w : World) : Op → Bool
  | .destroyBuf i | .clear i => w.writing i
  | .assign i j => i != j && w.writing i
  | .resize i count env => w.writing i && (w.buf i).any fun s => count != s.impl.size &&
      (count == 0 || s.impl.size == 0 && (w.allocateRaw s.elem count env).2.isOk)
  | _ => false

/-- Write handle `l` is alive on block `b` and its state is `InUse`. -/
def World.Writes (w : World) (l b : Nat) : Prop :=
  ∃ h n, w.write l = some h ∧ h.dataPtr = some b ∧ h.state = some n ∧ w.InUse n

/-- Read handle `j` is alive on block `b`. -/
def World.Reads (w : World) (j b : Nat) : Prop := ∃ r, w.read j = some r ∧ r.dataPtr = some b

structure Exclusive (w : World) : Prop where
  writer {l l' b : Nat} : w.Writes l b → w.Writes l' b → l = l'
  reader {l j b : Nat} : w.Writes l b → ¬ w.Reads j b
  /-- The block is not in the pool. -/
  taken {l b : Nat} : w.Writes l b → ∃ block, w.pool.allBlocks[b]? = some block ∧ block.inUse = true

/-- A buffer in its slot has state `n`, and a block. -/
def World.Home (w : World) (n : Nat) : Prop :=
  ∃ k s, w.buf k = some s ∧ s.shared.handleState = some n ∧ s.shared.dataPtr ≠ none

/-- Every state with a writer is that of a buffer. -/
def Homed (w : World) : Prop := ∀ n, w.InUse n → w.Home n

section
variable {w w' : World} {i j k l n b : Nat} {s t : Buf} {x : SharedBuffer} {op : Op} {out : Out}

namespace World

theorem writing_eq (hs : w.buf k = some s) (hn : s.shared.handleState = some n) (hu : w.InUse n) :
    w.writing k = true := by
  unfold writing
  rw [hs, Option.any_some, (stateOf_inUse hn).2 hu]
  rfl

/-- A buffer that is left alone goes on to be the home of its state. -/
theorem Home.kept {s' : Buf} {m : Nat} (hs' : w'.buf k = some s') (hk : Kept m s s')
    (hn : s.shared.handleState = some n) (hp : s.shared.dataPtr ≠ none) : w'.Home n := by
  refine ⟨k, s', hs', ?_, ?_⟩
  · rcases hk.state with h | ⟨h, -⟩
    · exact h.trans hn
    · rw [hn] at h
      cases h
  · rw [hk.dataPtr]
    exact hp

/-- The writer just made is at its buffer. -/
theorem getWriteHandle_home (hi : Inv w []) (he : w.getWriteHandle i = some (w', .ok l)) (hs : w'.buf i = some s)
    (hn : s.shared.handleState = some n) : w'.Home n := by
  refine ⟨i, s, hs, hn, ?_⟩
  obtain ⟨t, -, ⟨x, hx, -⟩ | ⟨m, w₁, hready, -, ⟨x, hx, -⟩ | ⟨-, -, -, hp, rfl⟩⟩⟩ := getWriteHandle_cases hi he
  · cases hx
  · cases hx
  · have hs' := hready.self.symm.trans hs
    cases hs'
    exact hp

/-- A buffer with a writer is not resized to a positive size. -/
theorem resize_writing (hi : Inv w []) (hs : w.buf i = some s) (hn : s.shared.handleState = some n) (hu : w.InUse n)
    (hp : s.shared.dataPtr ≠ none) {count : Nat} {env : AllocEnv} {res : Except Exn Unit}
    (ha : (Op.resize i count env).abandons w = false) (he : w.resize i count env = some (w', res)) : w'.Home n := by
  have hkeeps : count = s.impl.size ∨ count ≠ 0 ∧
    (s.impl.size = 0 → (w.allocateRaw s.elem count env).2.isOk = false) := by
    simpa [Op.abandons, writing_eq hs hn hu, hs, or_iff_not_imp_left] using ha
  obtain ⟨s', hs', hcases⟩ := resize_cases he
  rw [hs] at hs'
  cases hs'
  rcases hcases with ⟨-, rfl, -⟩ | ⟨hne, h0, -⟩ | ⟨hne, h0, ⟨x, -, halloc⟩ | ⟨w₁, j, halloc, hrest⟩⟩
  · exact ⟨i, s, hs, hn, hp⟩
  · rcases hkeeps with h | ⟨h, -⟩
    · exact absurd h hne
    · exact absurd h0 h
  · obtain ⟨s', hs', hk⟩ := (allocateRaw_frame halloc).buf hs id
    exact .kept hs' hk hn hp
  -- the bytes are read under the state of slot `i`
  have hsize : s.impl.size ≠ 0 := by
    intro hz
    have hno := (hkeeps.resolve_left hne).2 hz
    rw [halloc] at hno
    cases hno
  have hcopy : 0 < min count s.impl.size * s.elem ∧ s.shared.dataPtr ≠ none :=
    ⟨Nat.mul_pos (by omega) (hi.elem hs), hp⟩
  have hi₁ := hi.allocateRaw (hi.elem hs) halloc
  obtain ⟨hj, b, block, ht, -⟩ := allocateRaw_slot hi halloc
  have hlt := lt_length hs
  obtain ⟨hs₁, hu₁⟩ : w₁.buf i = some s ∧ w₁.InUse n := by
    rcases allocateRaw_cases hi halloc with ⟨x, hx, -⟩ | ⟨pool, b, block, -, -, -, -, rfl⟩
    · cases hx
    · exact ⟨(buf_addBuf.trans (if_neg (Nat.ne_of_lt hlt))).trans hs, hu⟩
  have hrefused : ∀ {w₂ r}, ¬ w₁.getReadHandle i = some (w₂, .ok r) := by
    intro w₂ r hr
    obtain ⟨t, m, w₃, ht, -, -, ⟨x, hx, -⟩ | ⟨-, hne, -⟩⟩ := getReadHandle_cases hi₁ hr
    · cases hx
    · rw [hs₁] at ht
      cases ht
      exact hne ((stateOf_inUse hn).2 hu₁)
  rcases hrest with ⟨hno, -⟩ | ⟨-, ⟨x, w₂, -, hc, rfl⟩ | ⟨w₂, hc, -⟩⟩
  · exact absurd hcopy hno
  · obtain ⟨s₂, hs₂, hk⟩ := (copyInto_frame hi₁ ht hc).buf hs₁ id
    obtain ⟨s', hs', hk'⟩ := (destroyBuf_frame j).buf hs₂ (show ¬ i = j by omega)
    exact .kept hs' (hk.trans (copyInto_frame hi₁ ht hc).length_le hk') hn hp
  · rcases copyInto_cases hc with ⟨x, hx, -⟩ | ⟨w₃, r, hr, -⟩
    · cases hx
    · exact absurd hr hrefused

end World

/-- A call that abandons no writer leaves every writer with its buffer. -/
theorem Homed.exec (hh : Homed w) (hi : Inv w []) (ha : op.abandons w = false) (he : exec w op = some (w', out)) :
    Homed w' := by
  intro n hu
  have hf := exec_frame hi he
  by_cases hnew : (op.scope w).writing n
  · cases exec_ran he with
    | fromOutputBuffer hp =>
      obtain ⟨w₁, l, s, hget, hs, hn⟩ := hnew
      obtain ⟨rfl, -⟩ | hp := World.fromOutputBuffer_cases hp
      · exact hh n hu
      · rw [hget] at hp
        cases hp
        exact World.getWriteHandle_home hi hget hs hn
    | getWriteHandle hp =>
      obtain ⟨w₁, l, s, hget, hs, hn⟩ := hnew
      rw [hget] at hp
      cases hp
      exact World.getWriteHandle_home hi hget hs hn
    | _ => exact hnew.elim
  obtain ⟨k, s, hs, hn, hp⟩ := hh n (hf.writing hu hnew)
  have hw := World.writing_eq hs hn (hf.writing hu hnew)
  by_cases hk : (op.scope w).buf k
  · cases exec_ran he with
    | @adopt j elem size =>
      cases hk
      have hne : w.bufs.length ≠ k := fun h => absurd (lt_length hs) (by omega)
      have hnew : (w.addBuf ⟨elem, size, {}⟩).buf w.bufs.length = some ⟨elem, size, {}⟩ :=
        World.buf_addBuf.trans (if_pos rfl)
      have hold : (w.addBuf ⟨elem, size, {}⟩).buf k = some s :=
        (World.buf_addBuf.trans (if_neg hne.symm)).trans hs
      exact ⟨_, _, World.buf_transfer hnew hold hne, hn, hp⟩
    | destroyBuf =>
      cases hk
      rw [Op.abandons, hw] at ha
      cases ha
    | clear =>
      cases hk
      rw [Op.abandons, hw] at ha
      cases ha
    | @assign i j _ _ hu' =>
      obtain ⟨hij, rfl | rfl⟩ := hk
      · rw [Op.abandons, hw, bne_iff_ne.2 hij] at ha
        cases ha
      · exact ⟨i, _, World.buf_assign hu' hs hij, hn, hp⟩
    | resize hres =>
      cases hk
      exact World.resize_writing hi hs hn (hf.writing hu hnew) hp ha hres
    | _ => exact hk.elim
  · obtain ⟨s', hs', hkept⟩ := hf.buf hs hk
    exact .kept hs' hkept hn hp

/-- Where every writer is with its buffer, it has its block to itself. -/
theorem Homed.exclusive (hh : Homed w) (hi : Inv w []) : Exclusive w := by
  have hhome : ∀ {l b : Nat}, w.Writes l b → ∃ h n x, w.write l = some h ∧ h.state = some n ∧ w.InUse n ∧
      w.Holds x ∧ x.handleState = some n ∧ x.dataPtr = some b := by
    rintro l b ⟨h, n, hl, hp, hn, hu⟩
    obtain ⟨k, s, hs, hsn, -⟩ := hh n hu
    have hb := hi.writeBound hl (.buf hs) (by rw [hp]; exact Option.some_ne_none b) (hsn.trans hn.symm)
    exact ⟨h, n, s.shared, hl, hn, hu, .buf hs, hsn, hb.trans hp⟩
  refine ⟨fun {l l' b} hl hl' => ?_, fun {l j b} hl hj => ?_, fun {l b} hl => ?_⟩
  · obtain ⟨h, n, x, hl, hn, ⟨st, hst, hu⟩, hx, hxn, hxb⟩ := hhome hl
    obtain ⟨h', n', x', hl', hn', -, hx', hxn', hxb'⟩ := hhome hl'
    rw [hi.holds_unique hx hx' hxb hxb', hxn'] at hxn
    cases hxn
    by_contra hne
    have hle := add_le_total (f := points (·.state) n) (l := w.writes) hl hl' hne
    have hone := ((hi.states hst).inUse hu).1
    rw [points_eq_one hn, points_eq_one hn'] at hle
    unfold World.writers at hone
    omega
  · obtain ⟨h, n, x, hl, hn, ⟨st, hst, hu⟩, hx, hxn, hxb⟩ := hhome hl
    obtain ⟨r, hr, hrb⟩ := hj
    have hrn := hi.readBound hr hx (by rw [hrb]; exact Option.some_ne_none b) (hxb.trans hrb.symm)
    have hle := le_total (f := points (·.state) n) (l := w.reads) hr
    have hzero := ((hi.states hst).inUse hu).2
    rw [points_eq_one (hrn.symm.trans hxn)] at hle
    unfold World.readers at hzero
    omega
  · obtain ⟨h, n, x, -, -, -, hx, -, hxb⟩ := hhome hl
    obtain ⟨block, hb, -⟩ := (hi.buffers hx).block hxb
    refine ⟨block, hb, ?_⟩
    have hle := World.Holds.le_bufSum (f := points (·.dataPtr) b) hx
    have ho := hi.owned hb
    rw [points_eq_one hxb] at hle
    unfold World.owners at ho
    by_contra hno
    rw [if_neg hno] at ho
    omega

theorem Init.homed (h : Init w) : Homed w := by
  obtain ⟨euid, pid, metadata, rfl⟩ := h
  rintro n ⟨st, hst, -⟩
  simp at hst

/-- In every run in which no buffer with a writer is cleared, destroyed, assigned to or resized to 0, a writer has its
block to itself. -/
theorem writer_exclusive (h : Machine.ReachIf step Init (fun w op => op.abandons w = false) w) : Exclusive w := by
  have hinv : ∀ w, Machine.ReachIf step Init (fun w op => op.abandons w = false) w → Inv w [] :=
    fun w h => Reachable.inv h.reach
  refine Homed.exclusive (h.inv_of hinv (fun _ => Init.homed) fun w op w' hi hh ha hs => ?_) (hinv w h)
  obtain ⟨out, he⟩ := step_exec hs
  exact hh.exec hi ha he

end

/-- A writer is refused a resize, ends its write and gives up its block; the next buffer takes the block over. -/
def handedOver : List Op :=
  [.construct 1 4 {}, .getWriteHandle 0, .resize 0 8 {}, .finalizeWriteHandle 0, .resize 0 0 {}, .construct 1 4 {},
    .getWriteHandle 2]

def handedOverEnd : World := (Machine.run step {} handedOver).getD {}

theorem handedOver_run : Machine.run step {} handedOver = some handedOverEnd := rfl

theorem writer_exclusive_handedOver : Exclusive handedOverEnd ∧ handedOverEnd.Writes 1 0 := by
  refine ⟨writer_exclusive (.run (.start ⟨0, 1, "", rfl⟩) (by decide) handedOver_run), ?_⟩
  exact ⟨{ dataPtr := some 0, state := some 1 }, 1, rfl, rfl, rfl, ⟨⟨.inUse, 0⟩, rfl, rfl⟩⟩

/-- The same without the end of the write. -/
def abandoned : List Op :=
  [.construct 1 4 {}, .getWriteHandle 0, .resize 0 0 {}, .construct 1 4 {}, .getWriteHandle 1]

def abandonedEnd : World := (Machine.run step {} abandoned).getD {}

theorem abandoned_run : Machine.run step {} abandoned = some abandonedEnd := rfl

theorem abandoned_not_exclusive : Reachable abandonedEnd ∧ ¬ Exclusive abandonedEnd := by
  refine ⟨Machine.Reach.run (.start ⟨0, 1, "", rfl⟩) abandoned_run, fun h => ?_⟩
  have h0 : abandonedEnd.Writes 0 0 :=
    ⟨{ dataPtr := some 0, state := some 0 }, 0, rfl, rfl, rfl, ⟨⟨.inUse, 0⟩, rfl, rfl⟩⟩
  have h1 : abandonedEnd.Writes 1 0 :=
    ⟨{ dataPtr := some 0, state := some 1 }, 1, rfl, rfl, rfl, ⟨⟨.inUse, 0⟩, rfl, rfl⟩⟩
  cases h.writer h0 h1

end MemfdBuffer.Proc
