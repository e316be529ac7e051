import MemfdBuffer.Proc.Progress
import MemfdBuffer.Proc.Throws

/-!
# Resizing and the right to write

A resize that copies makes a write handle of its own on the new buffer and ends it, after which the buffer has had its
writer. Whether a buffer can still be written is settled by the last size that it had before the present one.
-/

namespace MemfdBuffer.Proc

open Slots

/-! ### Sizes passed through -/

/-- The size after resizes to `counts` from size `n`. -/
def finalSize (n : Nat) (counts : List Nat) : Nat := counts.getLastD n

/-- The last size on the way that is not the final one, and 0 if there is none. -/
def lastOther (n : Nat) (counts : List Nat) : Nat :=
  ((n :: counts).reverse.dropWhile fun m => m == finalSize n counts).headD 0

/-- Successful calls of `resize` on slot `i`. -/
inductive Resizes (w : World) (i : Nat) : List Nat → World → Prop
  | nil : Resizes w i [] w
  | snoc {counts : List Nat} {w₁ w' : World} {count : Nat} {env : AllocEnv} : Resizes w i counts w₁ →
      w₁.resize i count env = some (w', .ok ()) → Resizes w i (counts ++ [count]) w'

section
variable {w w₁ w₂ w' : World} {i j k l n m c count : Nat} {counts : List Nat} {s t : Buf} {env : AllocEnv}

@[simp] theorem finalSize_snoc : finalSize n (counts ++ [m]) = m := by
  unfold finalSize
  rw [List.getLastD_concat]

theorem reverse_eq_finalSize (n : Nat) (counts : List Nat) : ∃ l, (n :: counts).reverse = finalSize n counts :: l := by
  induction counts using List.reverseRecOn with
  | nil => exact ⟨[], rfl⟩
  | append_singleton counts m ih =>
    refine ⟨(n :: counts).reverse, ?_⟩
    rw [finalSize_snoc, ← List.cons_append, List.reverse_append]
    rfl

theorem lastOther_snoc :
    lastOther n (counts ++ [m]) = if m = finalSize n counts then lastOther n counts else finalSize n counts := by
  have hsnoc : (n :: (counts ++ [m])).reverse = m :: (n :: counts).reverse := by
    rw [← List.cons_append, List.reverse_append]
    rfl
  obtain ⟨l, hl⟩ := reverse_eq_finalSize n counts
  unfold lastOther
  rw [finalSize_snoc, hsnoc, List.dropWhile_cons_of_pos (by simp)]
  split
  · rename_i hm
    rw [hm]
  · rename_i hm
    rw [hl, List.dropWhile_cons_of_neg (by simpa using Ne.symm hm), List.headD_cons]

/-! ### What a resize leaves -/

/-- The buffer has had its writer. -/
def World.Spent (w : World) (x : SharedBuffer) : Prop :=
  ∃ n st, x.handleState = some n ∧ w.states[n]? = some st ∧ st.state = .finalized

theorem World.Spent.frame {E : Scope} {x : SharedBuffer} (h : w.Spent x) (hf : Frame E w w') : w'.Spent x := by
  obtain ⟨n, st, hn, hst, hfin⟩ := h
  obtain ⟨st', hst', hfin'⟩ := hf.states hst
  exact ⟨n, st', hn, hst', hfin' hfin⟩

namespace World

/-- After a copy the target has had its writer. -/
theorem copyInto_spends (hi : Inv w []) (he : w.copyInto i j n = some (w', .ok ())) :
    ∃ t', w'.buf j = some t' ∧ w'.Spent t'.shared := by
  rcases copyInto_cases he with ⟨x, hx, -⟩ | ⟨w₁, k, h₁, ⟨x, w₂, hx, -⟩ | ⟨w₂, l, bytes, w₃, -, h₂, -, h₃, rfl⟩⟩
  · cases hx
  · cases hx
  have hi₁ := hi.getReadHandle h₁
  obtain ⟨s, m, h, -, ht₂, hl, -, hm⟩ := getWriteHandle_slot hi₁ h₂
  have hl₃ : w₃.write l = some h := by
    unfold write
    rw [(fill_keeps h₃).1]
    exact hl
  have ht₄ : ((w₃.destroyWrite l).destroyRead k).buf j =
      some (s.withShared { s.shared with handleState := some m }) := by
    unfold buf
    rw [show ((w₃.destroyWrite l).destroyRead k).bufs = (w₃.destroyWrite l).bufs from bufs_releaseRead,
      bufs_writeThrough h₃]
    exact ht₂
  refine ⟨_, ht₄, Spent.frame ?_ (destroyRead_frame k)⟩
  have hi₄ := ((hi₁.getWriteHandle h₂).fill h₃).destroyWrite l
  have hlt : m < (w₃.destroyWrite l).states.length := by
    have hbuf : (w₃.destroyWrite l).buf j = some (s.withShared { s.shared with handleState := some m }) := by
      unfold buf
      rw [bufs_writeThrough h₃]
      exact ht₂
    exact (hi₄.buffers (.buf hbuf)).state rfl
  exact ⟨m, _, rfl, List.getElem?_eq_getElem hlt, (releaseWrite_spec hl₃).2 m _ hm (List.getElem?_eq_getElem hlt)⟩

theorem resize_same (hs : w.buf i = some s) (he : w.resize i s.impl.size env = some (w', .ok ())) : w' = w := by
  unfold resize at he
  rw [hs, Option.bind_eq_bind, Option.bind_some, if_pos rfl] at he
  cases he
  rfl

/-- A resize to another size leaves an empty buffer, or a new one. The new one has had its writer, unless there was
nothing to copy. -/
theorem resize_leaves (hi : Inv w []) (hs : w.buf i = some s) (hlocal : s.shared.size = s.impl.size * s.elem)
    (hne : count ≠ s.impl.size) (he : w.resize i count env = some (w', .ok ())) :
    ∃ s', w'.buf i = some s' ∧ s'.elem = s.elem ∧ s'.impl.size = count ∧ s'.shared.size = count * s.elem ∧
      (count ≠ 0 → if s.impl.size = 0 then s'.shared.handleState = none else w'.Spent s'.shared) := by
  obtain ⟨t, ht, hcases⟩ := resize_cases he
  rw [hs] at ht
  cases ht
  rcases hcases with ⟨hsame, -⟩ | ⟨-, h0, rfl, -⟩ | ⟨-, h0, ⟨x, hx, -⟩ | ⟨w₁, j, halloc, hrest⟩⟩
  · exact absurd hsame hne
  · refine ⟨_, buf_clear hs, rfl, h0.symm, ?_, fun hno => absurd h0 hno⟩
    rw [h0, Nat.zero_mul]
    rfl
  · cases hx
  have helem := hi.elem hs
  have hi₁ := hi.allocateRaw helem halloc
  obtain ⟨-, hj, t, c, q, ht, -, -, hnone, -, hbytes, -⟩ := allocateRaw_new hi helem halloc
  obtain ⟨s₁, hs₁, hk₁⟩ := (allocateRaw_frame halloc).buf hs id
  have hlt := lt_length hs
  have hij : i ≠ j := by omega
  rcases hrest with ⟨hno, rfl, -⟩ | ⟨⟨hcopies, -⟩, ⟨x, w₂, hx, -⟩ | ⟨w₂, hcopy, rfl, -⟩⟩
  · obtain ⟨s', hs', hshared, hsize, helem'⟩ := buf_swapIn count hs₁ ht hij
    refine ⟨s', hs', helem'.trans hk₁.elem, hsize, by rw [hshared, hbytes], fun _ => ?_⟩
    have hzero : s.impl.size = 0 := by
      by_contra hsz
      have hpos := Nat.mul_pos (Nat.pos_of_ne_zero hsz) helem
      refine hno ⟨Nat.mul_pos (by omega) helem, fun hnull => ?_⟩
      have := (hi.buffers (.buf hs)).empty hnull
      omega
    rw [if_pos hzero, hshared]
    exact hnone
  · cases hx
  · obtain ⟨s₂, hs₂, hk₂⟩ := (copyInto_frame hi₁ ht hcopy).buf hs₁ id
    obtain ⟨t₂, ht₂, hkt⟩ := (copyInto_frame hi₁ ht hcopy).buf ht id
    obtain ⟨t', ht', hspent⟩ := copyInto_spends hi₁ hcopy
    rw [ht₂] at ht'
    cases ht'
    obtain ⟨s', hs', hshared, hsize, helem'⟩ := buf_swapIn count hs₂ ht₂ hij
    refine ⟨s', hs', (helem'.trans hk₂.elem).trans hk₁.elem, hsize, by rw [hshared, hkt.bytes, hbytes], fun _ => ?_⟩
    have hsz : s.impl.size ≠ 0 := by
      intro hz
      rw [hz, Nat.min_zero, Nat.zero_mul] at hcopies
      exact absurd hcopies (Nat.lt_irrefl 0)
    rw [if_neg hsz, hshared]
    exact hspent.frame (swapIn_frame hij)

/-- A buffer can be written if nobody has begun to, and not once it has had its writer. -/
theorem getWriteHandle_fresh (hi : Inv w []) (hs : w.buf i = some s) (hsize : s.shared.size ≠ 0)
    (hfresh : w.stateOf s.shared = {}) : ∃ v l, w.getWriteHandle i = some (v, .ok l) := by
  obtain ⟨v, res, he⟩ := getWriteHandle_total hi hs
  obtain ⟨t, ht, hcases⟩ := getWriteHandle_cases hi he
  rw [hs] at ht
  cases ht
  rcases hcases with ⟨x, -, -, hempty⟩ | ⟨n, w₁, -, -, ⟨x, -, -, hrefused⟩ | ⟨rfl, -⟩⟩
  · rcases hempty with hnull | hzero
    · exact absurd ((hi.buffers (.buf hs)).empty hnull) hsize
    · exact absurd hzero hsize
  · rw [hfresh] at hrefused
    rcases hrefused with hno | hno
    · exact absurd rfl hno
    · exact absurd rfl hno
  · exact ⟨v, _, he⟩

theorem getWriteHandle_spent (hi : Inv w []) (hs : w.buf i = some s) (hspent : w.Spent s.shared) :
    w.getWriteHandle i ≠ some (w', .ok l) := by
  intro he
  obtain ⟨n, st, hn, hst, hfin⟩ := hspent
  obtain ⟨t, ht, ⟨x, hx, -⟩ | ⟨m, w₁, -, -, ⟨x, hx, -⟩ | ⟨-, hunset, -⟩⟩⟩ := getWriteHandle_cases hi he
  · cases hx
  · cases hx
  · rw [hs] at ht
    cases ht
    rw [stateOf, hn, Option.bind_some, hst, Option.getD_some, hfin] at hunset
    cases hunset

end World

/-! ### Runs of resizes -/

theorem Resizes.inv (h : Resizes w i counts w') (hi : Inv w []) : Inv w' [] := by
  induction h with
  | nil => exact hi
  | snoc _ he ih => exact ih.resize he

/-- The buffer in slot `i` after resizes to `counts` from size `n`. -/
def Passed (w : World) (i elem n : Nat) (counts : List Nat) : Prop :=
  ∃ s, w.buf i = some s ∧ s.elem = elem ∧ s.impl.size = finalSize n counts ∧
    s.shared.size = finalSize n counts * elem ∧
    (finalSize n counts ≠ 0 → if lastOther n counts = 0 then w.stateOf s.shared = {} else w.Spent s.shared)

theorem Passed.resize (h : Passed w i m n counts) (hi : Inv w []) (he : w.resize i count env = some (w', .ok ())) :
    Passed w' i m n (counts ++ [count]) := by
  obtain ⟨s, hs, rfl, hsize, hbytes, hstate⟩ := h
  by_cases hcount : count = finalSize n counts
  · rw [hcount, ← hsize] at he
    cases World.resize_same hs he
    refine ⟨s, hs, rfl, ?_, ?_, ?_⟩
    · rw [finalSize_snoc, hsize, hcount]
    · rw [finalSize_snoc, hbytes, hcount]
    · rw [finalSize_snoc, lastOther_snoc, if_pos hcount, hcount]
      exact hstate
  · rw [← hsize] at hcount hbytes
    obtain ⟨s', hs', helem, hsize', hbytes', hleaves⟩ := World.resize_leaves hi hs hbytes hcount he
    refine ⟨s', hs', helem, ?_, ?_, ?_⟩
    · rw [finalSize_snoc, hsize']
    · rw [finalSize_snoc, hbytes']
    · rw [finalSize_snoc, lastOther_snoc, ← hsize, if_neg hcount]
      intro h0
      have hres := hleaves h0
      split
      · rename_i hz
        rw [if_pos hz] at hres
        unfold World.stateOf
        rw [hres]
        rfl
      · rename_i hz
        rw [if_neg hz] at hres
        exact hres

/-- After resizes a buffer that nobody has written can be written if and only if the last other size it had on the way
is 0, or there is none. -/
theorem resize_keeps_right (h : Reachable w) (hs : w.buf i = some s) (hlocal : s.shared.size = s.impl.size * s.elem)
    (hfresh : w.stateOf s.shared = {}) (hr : Resizes w i counts w') (hpos : 0 < finalSize s.impl.size counts) :
    (∃ v l, w'.getWriteHandle i = some (v, .ok l)) ↔ lastOther s.impl.size counts = 0 := by
  have hi' := hr.inv h.inv
  have hpassed : Passed w' i s.elem s.impl.size counts := by
    clear hpos hi'
    induction hr with
    | nil =>
      refine ⟨s, hs, rfl, rfl, hlocal, fun _ => ?_⟩
      have hnone : lastOther s.impl.size [] = 0 := by
        unfold lastOther finalSize
        simp
      rw [if_pos hnone]
      exact hfresh
    | snoc hr₁ he ih => exact ih.resize (hr₁.inv h.inv) he
  obtain ⟨s', hs', -, -, hbytes, hstate⟩ := hpassed
  have hres := hstate (by omega)
  constructor
  · rintro ⟨v, l, he⟩
    by_contra hno
    rw [if_neg hno] at hres
    exact World.getWriteHandle_spent hi' hs' hres he
  · intro hz
    rw [if_pos hz] at hres
    refine World.getWriteHandle_fresh hi' hs' ?_ hres
    rw [hbytes]
    exact Nat.mul_ne_zero (by omega) (by have := h.inv.elem hs; omega)

end

/-- A buffer of two elements, as it comes from the pool. -/
def constructed : World := (Machine.run step {} [.construct 1 2 {}]).getD {}

theorem constructed_reachable : Reachable constructed := by
  have hrun : Machine.run step {} [.construct 1 2 {}] = some constructed := rfl
  exact Machine.Reach.run (.start ⟨0, 1, "", rfl⟩) hrun

/-- The buffer after resizes to `counts`. -/
def resizedTo (counts : List Nat) : World :=
  (Machine.run step constructed (counts.map fun count => .resize 0 count {})).getD {}

theorem resize_keeps_right_emptied : Resizes constructed 0 [0, 3] (resizedTo [0, 3]) ∧
    ∃ v l, (resizedTo [0, 3]).getWriteHandle 0 = some (v, .ok l) := by
  have hr : Resizes constructed 0 [0, 3] (resizedTo [0, 3]) := by
    have he₁ : constructed.resize 0 0 {} = some (resizedTo [0], .ok ()) := rfl
    have he₂ : (resizedTo [0]).resize 0 3 {} = some (resizedTo [0, 3], .ok ()) := rfl
    exact (Resizes.nil.snoc he₁).snoc he₂
  exact ⟨hr, (resize_keeps_right constructed_reachable rfl rfl rfl hr (by decide)).2 (by decide)⟩

/-- Grown from two elements to four, the buffer cannot be written. -/
theorem grown_not_writable : ∃ s, Reachable constructed ∧ constructed.buf 0 = some s ∧ s.shared.size = 2 * s.elem ∧
    constructed.stateOf s.shared = {} ∧ Resizes constructed 0 [4] (resizedTo [4]) ∧
      ¬ ∃ v l, (resizedTo [4]).getWriteHandle 0 = some (v, .ok l) := by
  have he : constructed.resize 0 4 {} = some (resizedTo [4], .ok ()) := rfl
  refine ⟨_, constructed_reachable, rfl, rfl, rfl, Resizes.nil.snoc he, ?_⟩
  rintro ⟨v, l, he⟩
  have hthrew : ((resizedTo [4]).getWriteHandle 0).map (fun p => p.2.toOption) = some none := by decide
  rw [he] at hthrew
  cases hthrew

end MemfdBuffer.Proc
