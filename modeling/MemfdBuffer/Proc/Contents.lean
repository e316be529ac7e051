import MemfdBuffer.Proc.Frame

/-!
# The bytes of a buffer

A buffer that has a block has exactly the bytes of its payload. What `resize`, `clone`, `to_cpu` and a promotion do to
bytes, and that a call writes to no block that another buffer has or that a read handle is on.
-/

namespace MemfdBuffer.Proc

open Slots

def World.payload (w : World) (b : Nat) : Option (List UInt8) := (w.pool.allBlocks[b]?).map (·.payload)

/-- Buffer `s` has the bytes `l`. -/
structure Has (w : World) (s : Buf) (l : List UInt8) : Prop where
  length : l.length = s.impl.size * s.elem
  bytes : s.shared.dataPtr = none ∧ l = [] ∨ ∃ b, s.shared.dataPtr = some b ∧ w.payload b = some l

section
variable {E : Scope} {w w₁ w' : World} {due : List Effect} {i j k l n b c elem count : Nat} {s s' t : Buf}
  {r : ReadHandle} {bytes p q : List UInt8} {x : SharedBuffer} {env : AllocEnv}

theorem Frame.payload (hf : Frame E w w') (hp : w.payload b = some p) (hE : ¬ E.block b) : w'.payload b = some p := by
  unfold World.payload at hp ⊢
  obtain ⟨block, hb, rfl⟩ := Option.map_eq_some_iff.1 hp
  obtain ⟨block', hb', -, hkeep⟩ := hf.block hb
  rw [hb', Option.map_some, hkeep hE]

/-- A buffer goes on to have its bytes where it is left alone. -/
theorem Has.kept {m : Nat} (h : Has w s p) (hk : Kept m s s')
    (hp : ∀ b, s.shared.dataPtr = some b → w.payload b = some p → w'.payload b = some p) : Has w' s' p := by
  constructor
  · rw [hk.size, hk.elem]
    exact h.length
  · rw [hk.dataPtr]
    rcases h.bytes with hnone | ⟨b, hb, hpay⟩
    · exact .inl hnone
    · exact .inr ⟨b, hb, hp b hb hpay⟩

theorem Has.frame (h : Has w s p) (hs : w.buf i = some s) (hf : Frame E w w') (hb : ¬ E.buf i)
    (hE : ∀ b, s.shared.dataPtr = some b → ¬ E.block b) : ∃ s', w'.buf i = some s' ∧ s'.elem = s.elem ∧
      Has w' s' p := by
  obtain ⟨s', hs', hk⟩ := hf.buf hs hb
  exact ⟨s', hs', hk.elem, h.kept hk fun b hb hpay => hf.payload hpay (hE b hb)⟩

theorem Has.block (h : Has w s p) (helem : 0 < s.elem) (hsize : s.impl.size ≠ 0) :
    ∃ b, s.shared.dataPtr = some b ∧ w.payload b = some p := by
  rcases h.bytes with ⟨-, hnil⟩ | hsome
  · have hlength := h.length
    rw [hnil, List.length_nil] at hlength
    have := Nat.mul_pos (Nat.pos_of_ne_zero hsize) helem
    omega
  · exact hsome

/-! ### Whose a block is -/

theorem Inv.slot_unique (hi : Inv w due) (hs : w.buf i = some s) (ht : w.buf j = some t)
    (hsb : s.shared.dataPtr = some b)
    (htb : t.shared.dataPtr = some b) : i = j := by
  by_contra hne
  obtain ⟨block, hb, -⟩ := (hi.buffers (.buf hs)).block hsb
  have ho := hi.owned hb
  have hle := add_le_total (f := fun s : Buf => points (·.dataPtr) b s.shared) (l := w.bufs) hs ht hne
  rw [points_eq_one hsb, points_eq_one htb] at hle
  unfold World.owners World.bufSum at ho
  split at ho <;> omega

theorem World.Holds.not_spare (hx : w.Holds x) (hb : x.dataPtr = some b) : ¬ w.Spare b := by
  rintro ⟨howners, -⟩
  have hle := hx.le_bufSum (f := points (·.dataPtr) b)
  rw [points_eq_one hb] at hle
  unfold World.owners at howners
  omega

theorem Inv.read_not_spare (hi : Inv w due) (hr : w.read j = some r) (hb : r.dataPtr = some b) : ¬ w.Spare b := by
  rintro ⟨-, hleases⟩
  have hle := le_total (f := points (·.readerLease) b) (l := w.reads) hr
  rw [points_eq_one ((hi.reads hr).lease.trans hb)] at hle
  unfold World.leases at hleases
  omega

namespace World

/-! ### Handles -/

theorem getReadHandle_on (hi : Inv w []) (hs : w.buf i = some s) (he : w.getReadHandle i = some (w', .ok j)) :
    ∃ r, w'.read j = some r ∧ r.dataPtr = s.shared.dataPtr := by
  obtain ⟨t, n, w₁, ht, hready, -, ⟨x, hx, -⟩ | ⟨hj, -, w₂, hm, rfl⟩⟩ := getReadHandle_cases hi he
  · cases hx
  · cases hj
    rw [hs] at ht
    cases ht
    obtain ⟨pool, rfl⟩ := makeLease_frame hm
    exact ⟨_, read_addRead.trans (if_pos (by rw [← hready.reads]; rfl)), rfl⟩

theorem shown_of (hr : w.read j = some r) (hb : r.dataPtr = some b) (hp : w.payload b = some p) (hn : n ≤ p.length) :
    w.shown j n = some (p.take n) := by
  obtain ⟨block, hblock, rfl⟩ := Option.map_eq_some_iff.1 hp
  simp only [shown, hr, hb, hblock, Option.bind_eq_bind, Option.bind_some]
  exact if_pos hn

theorem shown_take (hr : w.read j = some r) (hb : r.dataPtr = some b) (hp : w.payload b = some p)
    (he : w.shown j n = some bytes) : n ≤ p.length ∧ bytes = p.take n := by
  obtain ⟨r', b', block, hr', hb', hblock, hn, rfl⟩ := shown_eq he
  rw [hr] at hr'
  cases hr'
  rw [hb] at hb'
  cases hb'
  unfold payload at hp
  rw [hblock] at hp
  cases hp
  exact ⟨hn, rfl⟩

/-- What a write handle fills, its buffer's block has. -/
theorem fill_payload (hi : Inv w []) (ht : w.buf j = some t) (hc : t.shared.dataPtr = some c)
    (hq : w.payload c = some q)
    (h₁ : w.getWriteHandle j = some (w₁, .ok l)) (h₂ : w₁.fill l bytes = some w') :
    bytes.length ≤ q.length ∧ w'.payload c = some (bytes ++ q.drop bytes.length) := by
  obtain ⟨s, m, h, hs, -, hl, hptr, -⟩ := getWriteHandle_slot hi h₁
  rw [ht] at hs
  cases hs
  obtain ⟨h', b, block, hl', hb, hblock, hle, rfl⟩ := fill_ok h₂
  rw [hl] at hl'
  cases hl'
  rw [hptr, hc] at hb
  cases hb
  have hq₁ := (getWriteHandle_frame h₁).payload hq id
  unfold payload at hq₁
  rw [hblock] at hq₁
  cases hq₁
  refine ⟨hle, ?_⟩
  show ((w₁.pool.modifyBlock c _).allBlocks[c]?).map _ = _
  rw [Pool.get_modifyBlock, hblock, Option.map_some, if_pos rfl]
  rfl

/-- After a copy the target starts with the bytes of the source. -/
theorem copyInto_payload (hi : Inv w []) (hs : w.buf i = some s) (ht : w.buf j = some t)
    (hb : s.shared.dataPtr = some b)
    (hc : t.shared.dataPtr = some c) (hp : w.payload b = some p) (hq : w.payload c = some q)
    (he : w.copyInto i j n = some (w', .ok ())) :
    n ≤ p.length ∧ w'.payload c = some (p.take n ++ q.drop n) := by
  rcases copyInto_cases he with ⟨x, hx, -⟩ | ⟨w₁, k, h₁, ⟨x, w₂, hx, -⟩ | ⟨w₂, l, bytes, w₃, -, h₂, hshown, h₃, rfl⟩⟩
  · cases hx
  · cases hx
  have hi₁ := hi.getReadHandle h₁
  have f₁ := getReadHandle_frame h₁
  have f₂ := getWriteHandle_frame h₂
  obtain ⟨t', ht', hkept⟩ := f₁.buf ht id
  obtain ⟨r, hr, hptr⟩ := getReadHandle_on hi hs h₁
  obtain ⟨hn, rfl⟩ := shown_take (f₂.read hr id) (hptr.trans hb) (f₂.payload (f₁.payload hp id) id) hshown
  obtain ⟨-, hfilled⟩ := fill_payload hi₁ ht' (hkept.dataPtr.trans hc) (f₁.payload hq id) h₂ h₃
  rw [List.length_take, min_eq_left hn] at hfilled
  refine ⟨hn, ?_⟩
  exact (destroyRead_frame k).payload ((destroyWrite_frame l).payload hfilled id) id

/-! ### Buffers from the pool -/

/-- A new buffer of at least one element. -/
theorem allocateRaw_new (hi : Inv w []) (helem : 0 < elem) (he : w.allocateRaw elem count env = (w', .ok j)) :
    0 < count ∧ j = w.bufs.length ∧ ∃ t c q, w'.buf j = some t ∧ t.elem = elem ∧ t.impl.size = count ∧
      t.shared.handleState = none ∧ t.shared.dataPtr = some c ∧ t.shared.size = count * elem ∧ w.Spare c ∧
      w'.payload c = some q ∧ q.length = count * elem := by
  obtain ⟨hj, c, block, ht, hc, hsize, hspare⟩ := allocateRaw_slot hi he
  have hstored := (hi.allocateRaw helem he).pool.stored hc
  have hpos := hstored.pos
  rw [hsize] at hpos
  refine ⟨Nat.pos_of_mul_pos_right hpos, hj, _, c, block.payload, ht, rfl, rfl, rfl, rfl, hsize, hspare, ?_, ?_⟩
  · unfold payload
    rw [hc, Option.map_some]
  · rw [hstored.length, hsize]

/-- On a new buffer a write handle is not refused. -/
theorem getWriteHandle_new (hi : Inv w []) (ht : w.buf j = some t) (hc : t.shared.dataPtr = some c)
    (hsize : t.shared.size ≠ 0) (hnone : t.shared.handleState = none) {y : Exn} :
    w.getWriteHandle j ≠ some (w', .error y) := by
  intro he
  have hnew : w.stateOf t.shared = {} := by
    unfold stateOf
    rw [hnone]
    rfl
  obtain ⟨s, hs, ⟨x, -, -, hempty⟩ | ⟨m, w₁, -, -, ⟨x, -, -, hrefused⟩ | ⟨hok, -⟩⟩⟩ := getWriteHandle_cases hi he
  · rw [ht] at hs
    cases hs
    rcases hempty with hnull | hzero
    · rw [hc] at hnull
      cases hnull
    · exact hsize hzero
  · rw [ht] at hs
    cases hs
    rw [hnew] at hrefused
    rcases hrefused with h | h
    · exact h rfl
    · exact h rfl
  · cases hok

/-! ### The calls of a buffer -/

theorem construct_has (hi : Inv w []) (helem : 0 < elem) (he : w.construct elem count env = (w', .ok j)) :
    ∃ t q, w'.buf j = some t ∧ t.elem = elem ∧ t.impl.size = count ∧ Has w' t q := by
  unfold construct at he
  split at he
  · rename_i h0
    cases he
    refine ⟨_, [], buf_addBuf.trans (if_pos rfl), rfl, h0.symm, ?_, .inl ⟨rfl, rfl⟩⟩
    show 0 = 0 * elem
    rw [Nat.zero_mul]
  · obtain ⟨-, -, t, c, q, ht, h1, h2, -, hc, -, -, hq, hlen⟩ := allocateRaw_new hi helem he
    exact ⟨t, q, ht, h1, h2, by rw [hlen, h1, h2], .inr ⟨c, hc, hq⟩⟩

theorem clear_has (hs : w.buf i = some s) : ∃ s', (w.clear i).buf i = some s' ∧ s'.elem = s.elem ∧
    Has (w.clear i) s' [] := by
  refine ⟨_, buf_clear hs, rfl, ?_, .inl ⟨rfl, rfl⟩⟩
  show 0 = 0 * s.elem
  rw [Nat.zero_mul]

/-- `resize` keeps the bytes as far as old and new size both reach. -/
theorem resize_has (hi : Inv w []) (hs : w.buf i = some s) (h : Has w s p)
    (he : w.resize i count env = some (w', .ok ())) : ∃ s' q, w'.buf i = some s' ∧ s'.elem = s.elem ∧
      s'.impl.size = count ∧ Has w' s' q ∧
      q.take (min (count * s.elem) p.length) = p.take (min (count * s.elem) p.length) := by
  obtain ⟨t, ht, hcases⟩ := resize_cases he
  rw [hs] at ht
  cases ht
  rcases hcases with ⟨hsame, rfl, -⟩ | ⟨-, h0, rfl, -⟩ | ⟨-, -, ⟨x, hx, -⟩ | ⟨w₁, j, halloc, hrest⟩⟩
  · exact ⟨s, p, hs, rfl, hsame.symm, h, rfl⟩
  · obtain ⟨s', hs', helem, hempty⟩ := clear_has hs
    have hzero : s'.impl.size = 0 := by
      rw [buf_clear hs] at hs'
      cases hs'
      rfl
    refine ⟨s', [], hs', helem, hzero.trans h0.symm, hempty, ?_⟩
    rw [h0, Nat.zero_mul, Nat.zero_min, List.take_zero, List.take_zero]
  · cases hx
  have helem := hi.elem hs
  have f₁ := allocateRaw_frame halloc
  have hi₁ := hi.allocateRaw helem halloc
  obtain ⟨hcount, hj, t, c, q, ht, -, -, -, hc, -, -, hq, hlen⟩ := allocateRaw_new hi helem halloc
  obtain ⟨s₁, hs₁, hk₁⟩ := f₁.buf hs id
  have hlt := lt_length hs
  have hij : i ≠ j := by omega
  -- the new buffer goes to slot `i` with the bytes that its block has by then
  have hswap : ∀ {w₂ : World} {s₂ t₂ : Buf} {q₂ : List UInt8}, w₂.buf i = some s₂ → s₂.elem = s.elem →
      w₂.buf j = some t₂ → t₂.shared.dataPtr = some c → w₂.payload c = some q₂ → q₂.length = count * s.elem →
      ∃ s', (w₂.swapIn i j count).buf i = some s' ∧ s'.elem = s.elem ∧ s'.impl.size = count ∧
        Has (w₂.swapIn i j count) s' q₂ := by
    intro w₂ s₂ t₂ q₂ hs₂ he₂ ht₂ hc₂ hq₂ hlen₂
    obtain ⟨s', hs', hshared, hsize, helem'⟩ := buf_swapIn count hs₂ ht₂ hij
    refine ⟨s', hs', helem'.trans he₂, hsize, ?_, .inr ⟨c, by rw [hshared, hc₂], (swapIn_frame hij).payload hq₂ id⟩⟩
    rw [hlen₂, hsize, helem', he₂]
  rcases hrest with ⟨hno, rfl, -⟩ | ⟨⟨hpos, -⟩, ⟨x, w₂, hx, -⟩ | ⟨w₂, hcopy, rfl, -⟩⟩
  · obtain ⟨s', hs', h1, h2, h3⟩ := hswap hs₁ hk₁.elem ht hc hq hlen
    refine ⟨s', q, hs', h1, h2, h3, ?_⟩
    -- nothing to copy: the old buffer was empty
    have hp : p.length = 0 := by
      rcases h.bytes with ⟨-, hnil⟩ | ⟨b, hb, -⟩
      · rw [hnil]
        rfl
      · by_contra hne
        have hsize : s.impl.size ≠ 0 := by
          intro hz
          rw [h.length, hz, Nat.zero_mul] at hne
          exact hne rfl
        exact hno ⟨Nat.mul_pos (by omega) helem, by rw [hb]; exact Option.some_ne_none b⟩
    rw [hp, Nat.min_zero, List.take_zero, List.take_zero]
  · cases hx
  · have hne : s.impl.size ≠ 0 := by
      intro hz
      rw [hz, Nat.min_zero, Nat.zero_mul] at hpos
      cases hpos
    obtain ⟨b, hb, hpay⟩ := h.block helem hne
    have f₂ := copyInto_frame hi₁ ht hcopy
    obtain ⟨hn, hq₂⟩ := copyInto_payload hi₁ hs₁ ht (hk₁.dataPtr.trans hb) hc (f₁.payload hpay id) hq hcopy
    obtain ⟨s₂, hs₂, hk₂⟩ := f₂.buf hs₁ id
    obtain ⟨t₂, ht₂, hkt⟩ := f₂.buf ht id
    have hmin : min count s.impl.size * s.elem = min (count * s.elem) p.length := by
      rw [h.length, Nat.mul_min_mul_right]
    obtain ⟨s', hs', h1, h2, h3⟩ := hswap hs₂ (hk₂.elem.trans hk₁.elem) ht₂ (hkt.dataPtr.trans hc) hq₂ (by
      rw [List.length_append, List.length_take, List.length_drop]
      omega)
    refine ⟨s', _, hs', h1, h2, h3, ?_⟩
    rw [← hmin, List.take_append_of_le_length (by rw [List.length_take]; omega), List.take_take, min_self]

theorem toCpu_has (hi : Inv w []) (hs : w.buf i = some s) (h : Has w s p) (he : w.toCpu i = some (w', .ok bytes)) :
    bytes = p := by
  obtain ⟨t, ht, ⟨h0, rfl, hres⟩ | ⟨hsize, ⟨x, hx, -⟩ | ⟨w₁, k, bytes', hres, h₁, hshown, rfl⟩⟩⟩ := toCpu_cases he
  · cases hres
    rw [hs] at ht
    cases ht
    have hlength := h.length
    rw [h0, Nat.zero_mul] at hlength
    exact (List.length_eq_zero_iff.1 hlength).symm
  · cases hx
  · cases hres
    rw [hs] at ht
    cases ht
    obtain ⟨b, hb, hp⟩ := h.block (hi.elem hs) hsize
    obtain ⟨r, hr, hptr⟩ := getReadHandle_on hi hs h₁
    obtain ⟨-, rfl⟩ := shown_take hr (hptr.trans hb) ((getReadHandle_frame h₁).payload hp id) hshown
    rw [← h.length, List.take_length]

/-- A clone has the bytes of the buffer. -/
theorem clone_has (hi : Inv w []) (hs : w.buf i = some s) (h : Has w s p) (he : w.clone i env = some (w', .ok j)) :
    ∃ t, w'.buf j = some t ∧ t.elem = s.elem ∧ Has w' t p := by
  obtain ⟨u, hu, hcases⟩ := clone_cases he
  rw [hs] at hu
  cases hu
  have helem := hi.elem hs
  rcases hcases with ⟨x, hx, -⟩ | ⟨w₁, k, hconstruct, hrest⟩
  · cases hx
  obtain ⟨t, q, ht, h1, h2, hq⟩ := construct_has hi helem hconstruct
  rcases hrest with ⟨h0, rfl, hres⟩ | ⟨hsize, ⟨x, w₂, hx, -⟩ | ⟨hres, hcopy⟩⟩
  · cases hres
    have hnil : ∀ l : List UInt8, l.length = s.impl.size * s.elem → l = [] := by
      intro l hl
      rw [h0, Nat.zero_mul] at hl
      exact List.length_eq_zero_iff.1 hl
    rw [hnil p h.length]
    refine ⟨t, ht, h1, ?_⟩
    rw [hnil q (by rw [hq.length, h1, h2])] at hq
    exact hq
  · cases hx
  · cases hres
    have hi₁ := hi.construct helem hconstruct
    have f₁ := construct_frame hconstruct
    have f₂ := copyInto_frame hi₁ ht hcopy
    obtain ⟨s₁, hs₁, hk₁⟩ := f₁.buf hs id
    obtain ⟨b, hb, hp⟩ := h.block helem hsize
    obtain ⟨c, hc, hqc⟩ := hq.block (by rw [h1]; exact helem) (by rw [h2]; exact hsize)
    obtain ⟨-, hpay⟩ := copyInto_payload hi₁ hs₁ ht (hk₁.dataPtr.trans hb) hc (f₁.payload hp id) hqc hcopy
    obtain ⟨t₂, ht₂, hk₂⟩ := f₂.buf ht id
    have hqlen : q.length = s.impl.size * s.elem := by rw [hq.length, h1, h2]
    rw [← h.length, List.take_length, h.length, ← hqlen, List.drop_length, List.append_nil] at hpay
    refine ⟨t₂, ht₂, hk₂.elem.trans h1, ?_, .inr ⟨c, hk₂.dataPtr.trans hc, hpay⟩⟩
    rw [h.length, hk₂.size, hk₂.elem, h1, h2]

/-- A promoted buffer shows the bytes of the CPU buffer. -/
theorem promote_shows (hi : Inv w []) {source : List UInt8} (helem : 0 < elem) (hlen : source.length = count * elem)
    (he : w.promote elem count source env = some (w', .ok k)) :
    ∃ r b, w'.read k = some r ∧ r.dataPtr = some b ∧ w'.payload b = some source := by
  rcases promote_cases he with ⟨-, -, x, hx⟩ | ⟨hcount, ⟨x, hx, -⟩ | ⟨w₁, j, hconstruct, hrest⟩⟩
  · cases hx
  · cases hx
  rcases hrest with ⟨x, w₂, hx, -⟩ | ⟨w₂, l, w₃, h₂, h₃, ⟨x, w₄, hx, -⟩ | ⟨w₄, m, h₄, rfl, hres⟩⟩
  · cases hx
  · cases hx
  cases hres
  have hpos : 0 < count * elem := Nat.mul_pos (Nat.pos_of_ne_zero hcount) helem
  have hi₁ := hi.construct Nat.one_pos hconstruct
  obtain ⟨t, q, ht, h1, h2, hq⟩ := construct_has hi Nat.one_pos hconstruct
  obtain ⟨c, hc, hqc⟩ := hq.block (by rw [h1]; exact Nat.one_pos) (by rw [h2]; omega)
  obtain ⟨-, hpay⟩ := fill_payload hi₁ ht hc hqc h₂ h₃
  have hqlen : q.length = source.length := by rw [hq.length, h1, h2, Nat.mul_one, hlen]
  rw [← hqlen, List.drop_length, List.append_nil] at hpay
  have hpay₃ := (destroyWrite_frame l).payload hpay id
  have hi₃ := ((hi₁.getWriteHandle h₂).fill h₃).destroyWrite l
  obtain ⟨t₃, ht₃, hk⟩ := (writeThrough_frame hi₁ ht h₂ h₃).buf ht id
  obtain ⟨r, hr, hptr⟩ := getReadHandle_on hi₃ ht₃ h₄
  have hpay₄ := (getReadHandle_frame h₄).payload hpay₃ id
  obtain ⟨t₄, ht₄, -⟩ := (getReadHandle_frame h₄).buf ht₃ id
  refine ⟨{ r with promotedBuffer := some t₄.impl }, c, ?_, hptr.trans (hk.dataPtr.trans hc), ?_⟩
  · unfold setPromotedBuffer
    rw [hr, ht₄]
    exact (read_setRead hr).trans (if_pos rfl)
  · exact (setPromotedBuffer_frame k j).payload hpay₄ id

end World

end

end MemfdBuffer.Proc
