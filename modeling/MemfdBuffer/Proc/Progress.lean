import MemfdBuffer.Proc.Contents

/-!
# Calls on live buffers

A call on a live buffer answers or throws: no pointer is dangling and no copy runs over the end of a block.
-/

namespace MemfdBuffer.Proc

open Slots

section
variable {w w₁ w' : World} {i j l n b c elem count : Nat} {s t : Buf} {p q bytes : List UInt8} {env : AllocEnv}

namespace World

theorem getReadHandle_total (hi : Inv w []) (hs : w.buf i = some s) : ∃ v res, w.getReadHandle i = some (v, res) := by
  unfold getReadHandle
  rw [hs, Option.bind_eq_bind, Option.bind_some]
  cases hh : w.handleState i s with
  | mk w₁ n =>
    obtain ⟨hready, -⟩ := handleState_spec hi hs hh
    dsimp only
    rw [hready.state, Option.bind_eq_bind, Option.bind_some]
    split
    · exact ⟨_, _, rfl⟩
    · split <;> exact ⟨_, _, rfl⟩

theorem getWriteHandle_total (hi : Inv w []) (hs : w.buf i = some s) :
    ∃ v res, w.getWriteHandle i = some (v, res) := by
  unfold getWriteHandle
  rw [hs, Option.bind_eq_bind, Option.bind_some]
  split
  · exact ⟨_, _, rfl⟩
  · split
    · exact ⟨_, _, rfl⟩
    · cases hh : w.handleState i s with
      | mk w₁ n =>
        obtain ⟨hready, -⟩ := handleState_spec hi hs hh
        dsimp only
        rw [hready.state, Option.bind_eq_bind, Option.bind_some]
        cases (w.stateOf s.shared).state with
        | unset =>
          dsimp only
          split
          · exact ⟨_, _, rfl⟩
          · exact ⟨_, _, rfl⟩
        | inUse => exact ⟨_, _, rfl⟩
        | finalized => exact ⟨_, _, rfl⟩

theorem fill_total (hi : Inv w []) (ht : w.buf j = some t) (hc : t.shared.dataPtr = some c) (hq : w.payload c = some q)
    (h₁ : w.getWriteHandle j = some (w₁, .ok l)) (hle : bytes.length ≤ q.length) : ∃ v, w₁.fill l bytes = some v := by
  obtain ⟨s, m, h, hs, -, hl, hptr, -⟩ := getWriteHandle_slot hi h₁
  rw [ht] at hs
  cases hs
  have hq₁ := (getWriteHandle_frame h₁).payload hq id
  obtain ⟨block, hblock, rfl⟩ := Option.map_eq_some_iff.1 hq₁
  unfold fill
  simp only [hl, hptr, hc, hblock, Option.bind_eq_bind, Option.bind_some]
  exact ⟨_, if_pos hle⟩

theorem copyInto_total (hi : Inv w []) (hs : w.buf i = some s) (ht : w.buf j = some t) (hb : s.shared.dataPtr = some b)
    (hc : t.shared.dataPtr = some c) (hp : w.payload b = some p) (hq : w.payload c = some q) (hn : n ≤ p.length)
    (hm : n ≤ q.length) : ∃ v res, w.copyInto i j n = some (v, res) := by
  obtain ⟨w₁, res₁, h₁⟩ := getReadHandle_total hi hs
  unfold copyInto
  rw [h₁, Option.bind_eq_bind, Option.bind_some]
  cases res₁ with
  | error x => exact ⟨_, _, rfl⟩
  | ok r =>
    have hi₁ := hi.getReadHandle h₁
    have f₁ := getReadHandle_frame h₁
    obtain ⟨t₁, ht₁, hk⟩ := f₁.buf ht id
    obtain ⟨w₂, res₂, h₂⟩ := getWriteHandle_total hi₁ ht₁
    dsimp only
    rw [h₂, Option.bind_eq_bind, Option.bind_some]
    cases res₂ with
    | error x => exact ⟨_, _, rfl⟩
    | ok l =>
      have f₂ := getWriteHandle_frame h₂
      obtain ⟨r', hr, hptr⟩ := getReadHandle_on hi hs h₁
      have hshown := shown_of (f₂.read hr id) (hptr.trans hb) (f₂.payload (f₁.payload hp id) id) hn
      have hlen : (p.take n).length ≤ q.length := by
        rw [List.length_take]
        omega
      obtain ⟨w₃, h₃⟩ := fill_total hi₁ ht₁ (hk.dataPtr.trans hc) (f₁.payload hq id) h₂ hlen
      dsimp only
      rw [hshown, Option.bind_some, h₃]
      exact ⟨_, _, rfl⟩

theorem toCpu_total (hi : Inv w []) (hs : w.buf i = some s) (h : Has w s p) : ∃ v res, w.toCpu i = some (v, res) := by
  unfold toCpu
  rw [hs, Option.bind_eq_bind, Option.bind_some]
  split
  · exact ⟨_, _, rfl⟩
  · rename_i hsize
    obtain ⟨w₁, res, h₁⟩ := getReadHandle_total hi hs
    rw [h₁, Option.bind_eq_bind, Option.bind_some]
    cases res with
    | error x => exact ⟨_, _, rfl⟩
    | ok r =>
      obtain ⟨b, hb, hp⟩ := h.block (hi.elem hs) hsize
      obtain ⟨r', hr, hptr⟩ := getReadHandle_on hi hs h₁
      have hshown := shown_of hr (hptr.trans hb) ((getReadHandle_frame h₁).payload hp id) h.length.ge
      dsimp only
      rw [hshown]
      exact ⟨_, _, rfl⟩

theorem clone_total (hi : Inv w []) (hs : w.buf i = some s) (h : Has w s p) :
    ∃ v res, w.clone i env = some (v, res) := by
  unfold clone
  rw [hs, Option.bind_eq_bind, Option.bind_some]
  cases ha : w.construct s.elem s.impl.size env with
  | mk w₁ res =>
    cases res with
    | error x => exact ⟨_, _, rfl⟩
    | ok j =>
      dsimp only
      split
      · rename_i hsize
        have helem := hi.elem hs
        have f₁ := construct_frame ha
        obtain ⟨t, q, ht, h1, h2, hq⟩ := construct_has hi helem ha
        obtain ⟨s₁, hs₁, hk⟩ := f₁.buf hs id
        obtain ⟨b, hb, hp⟩ := h.block helem (by omega)
        obtain ⟨c, hc, hqc⟩ := hq.block (by rw [h1]; exact helem) (by rw [h2]; omega)
        have hqlen : q.length = s.impl.size * s.elem := by rw [hq.length, h1, h2]
        obtain ⟨w₂, res₂, hcopy⟩ := copyInto_total (hi.construct helem ha) hs₁ ht (hk.dataPtr.trans hb) hc
          (f₁.payload hp id) hqc h.length.ge hqlen.ge
        rw [hcopy, Option.bind_eq_bind, Option.bind_some]
        cases res₂ with
        | error x => exact ⟨_, _, rfl⟩
        | ok u => exact ⟨_, _, rfl⟩
      · exact ⟨_, _, rfl⟩

theorem resize_total (hi : Inv w []) (hs : w.buf i = some s) (h : Has w s p) :
    ∃ v res, w.resize i count env = some (v, res) := by
  unfold resize
  rw [hs, Option.bind_eq_bind, Option.bind_some]
  split
  · exact ⟨_, _, rfl⟩
  split
  · exact ⟨_, _, rfl⟩
  cases ha : w.allocateRaw s.elem count env with
  | mk w₁ res =>
    cases res with
    | error x => exact ⟨_, _, rfl⟩
    | ok j =>
      dsimp only
      split
      · rename_i hcopies
        have helem := hi.elem hs
        have f₁ := allocateRaw_frame ha
        obtain ⟨-, -, t, c, q, ht, -, -, -, hc, -, -, hq, hqlen⟩ := allocateRaw_new hi helem ha
        obtain ⟨s₁, hs₁, hk⟩ := f₁.buf hs id
        have hsize : s.impl.size ≠ 0 := by
          intro hz
          rw [hz, Nat.min_zero, Nat.zero_mul] at hcopies
          exact absurd hcopies.1 (Nat.lt_irrefl 0)
        obtain ⟨b, hb, hp⟩ := h.block helem hsize
        have hn : min count s.impl.size * s.elem ≤ p.length := by
          rw [h.length]
          exact Nat.mul_le_mul_right _ (Nat.min_le_right _ _)
        have hm : min count s.impl.size * s.elem ≤ q.length := by
          rw [hqlen]
          exact Nat.mul_le_mul_right _ (Nat.min_le_left _ _)
        obtain ⟨w₂, res₂, hcopy⟩ := copyInto_total (hi.allocateRaw helem ha) hs₁ ht (hk.dataPtr.trans hb) hc
          (f₁.payload hp id) hq hn hm
        rw [hcopy, Option.bind_eq_bind, Option.bind_some]
        cases res₂ with
        | error x => exact ⟨_, _, rfl⟩
        | ok u => exact ⟨_, _, rfl⟩
      · exact ⟨_, _, rfl⟩

theorem promote_total (hi : Inv w []) {source : List UInt8} (helem : 0 < elem) (hlen : source.length = count * elem) :
    ∃ v res, w.promote elem count source env = some (v, res) := by
  unfold promote
  split
  · exact ⟨_, _, rfl⟩
  rename_i hcount
  split
  · exact ⟨_, _, rfl⟩
  cases ha : w.construct 1 (count * elem) env with
  | mk w₁ res =>
    cases res with
    | error x => exact ⟨_, _, rfl⟩
    | ok j =>
      have hpos : 0 < count * elem := Nat.mul_pos (Nat.pos_of_ne_zero hcount) helem
      have hi₁ := hi.construct Nat.one_pos ha
      obtain ⟨t, q, ht, h1, h2, hq⟩ := construct_has hi Nat.one_pos ha
      obtain ⟨c, hc, hqc⟩ := hq.block (by rw [h1]; exact Nat.one_pos) (by rw [h2]; omega)
      obtain ⟨w₂, res₂, h₂⟩ := getWriteHandle_total hi₁ ht
      dsimp only
      rw [h₂, Option.bind_eq_bind, Option.bind_some]
      cases res₂ with
      | error x => exact ⟨_, _, rfl⟩
      | ok l =>
        have hle : source.length ≤ q.length := by
          rw [hq.length, h1, h2]
          omega
        obtain ⟨w₃, h₃⟩ := fill_total hi₁ ht hc hqc h₂ hle
        obtain ⟨t₃, ht₃, -⟩ := (writeThrough_frame hi₁ ht h₂ h₃).buf ht id
        obtain ⟨w₄, res₄, h₄⟩ := getReadHandle_total (((hi₁.getWriteHandle h₂).fill h₃).destroyWrite l) ht₃
        dsimp only
        rw [h₃, Option.bind_eq_bind, Option.bind_some, h₄, Option.bind_some]
        cases res₄ with
        | error x => exact ⟨_, _, rfl⟩
        | ok r => exact ⟨_, _, rfl⟩

end World

end

end MemfdBuffer.Proc
