import Mathlib.Data.BitVec

/-!
# A word that counts readers below a claim bit

A word of `w + 1` bits: the top bit is a claim, the `w` bits below it count readers. A reader enters
by adding one and is refused while the claim is set or the count is at its maximum; it leaves by
subtracting one. `Holds v n` says that `v` is unclaimed and counts `n`; the lemmas are what entering
and leaving do to it, so that a client never looks at the bits.
-/

namespace Latch

variable {w : Nat} {v : BitVec (w + 1)} {n : Nat}

/-- The claim bit. -/
def claimBit (w : Nat) : BitVec (w + 1) := BitVec.twoPow (w + 1) w

/-- The bits of the count. -/
def countMask (w : Nat) : BitVec (w + 1) := ~~~(claimBit w)

/-- The claim bit is set. -/
def claimed (v : BitVec (w + 1)) : Bool := v &&& claimBit w != 0#(w + 1)

/-- The count is at its maximum. -/
def saturated (v : BitVec (w + 1)) : Bool := v &&& countMask w == countMask w

/-- `v` is unclaimed and counts `n` readers. -/
structure Holds (v : BitVec (w + 1)) (n : Nat) : Prop where
  toNat_eq : v.toNat = n
  lt : n < 2 ^ w

theorem claimed_eq_msb : claimed v = v.msb := by
  unfold claimed claimBit
  rw [BitVec.and_twoPow, BitVec.msb_eq_getLsbD_last, Nat.add_sub_cancel]
  cases v.getLsbD w with
  | true =>
    have : BitVec.twoPow (w + 1) w ≠ 0#(w + 1) := fun h => by
      have := congrArg BitVec.toNat h
      rw [BitVec.toNat_twoPow_of_lt (Nat.lt_succ_self w)] at this
      simp at this
    simp [this]
  | false => simp

theorem claimed_iff : claimed v = true ↔ 2 ^ w ≤ v.toNat := by
  rw [claimed_eq_msb, BitVec.msb_eq_decide]; simp

theorem toNat_claimBit : (claimBit w).toNat = 2 ^ w :=
  BitVec.toNat_twoPow_of_lt (Nat.lt_succ_self w)

theorem toNat_countMask : (countMask w).toNat = 2 ^ w - 1 := by
  have h := Nat.two_pow_pos w
  rw [countMask, BitVec.toNat_not, toNat_claimBit, Nat.pow_succ]; omega

theorem and_countMask (h : claimed v = false) : v &&& countMask w = v := by
  have hz : v &&& claimBit w = 0#(w + 1) := by simpa [claimed] using h
  have hs : v = (v &&& claimBit w) ||| (v &&& countMask w) := by
    rw [countMask, ← BitVec.and_or_distrib_left, BitVec.or_not_self, BitVec.and_allOnes]
  rw [hz, BitVec.zero_or] at hs
  exact hs.symm

namespace Holds

theorem claimed (h : Holds v n) : Latch.claimed v = false := by
  have hn : ¬ Latch.claimed v = true := fun hc => by
    have := claimed_iff.1 hc
    have := h.toNat_eq; have := h.lt; omega
  simpa using hn

theorem saturated_iff (h : Holds v n) : saturated v = true ↔ n + 1 = 2 ^ w := by
  have hpos := Nat.two_pow_pos w
  rw [saturated, and_countMask h.claimed, beq_iff_eq, BitVec.toNat_eq, toNat_countMask, h.toNat_eq]
  omega

theorem zero : Holds (0#(w + 1)) 0 := ⟨by simp, Nat.two_pow_pos w⟩

theorem eq_zero_iff (h : Holds v n) : v = 0#(w + 1) ↔ n = 0 := by
  rw [← h.toNat_eq, BitVec.toNat_eq]; simp

/-- A reader that is not refused is counted. -/
theorem enter (h : Holds v n) (hs : saturated v = false) : Holds (v + 1#(w + 1)) (n + 1) := by
  have hlt : n + 1 < 2 ^ w := by
    have hne : n + 1 ≠ 2 ^ w := fun he => by rw [h.saturated_iff.2 he] at hs; cases hs
    have := h.lt; omega
  have hw : 2 ^ w < 2 ^ (w + 1) := by rw [Nat.pow_succ]; have := Nat.two_pow_pos w; omega
  refine ⟨?_, hlt⟩
  rw [BitVec.toNat_add, h.toNat_eq]
  have h1 : (1#(w + 1)).toNat = 1 := by
    simp only [BitVec.toNat_ofNat]; exact Nat.mod_eq_of_lt (by have := Nat.two_pow_pos w; omega)
  rw [h1]; exact Nat.mod_eq_of_lt (by omega)

/-- A reader that leaves is no longer counted. -/
theorem leave (h : Holds v (n + 1)) : Holds (v - 1#(w + 1)) n := by
  have hw : 2 ^ w < 2 ^ (w + 1) := by rw [Nat.pow_succ]; have := Nat.two_pow_pos w; omega
  have h1 : (1#(w + 1)).toNat = 1 := by
    simp only [BitVec.toNat_ofNat]; exact Nat.mod_eq_of_lt (by have := Nat.two_pow_pos w; omega)
  refine ⟨?_, by have := h.lt; omega⟩
  have hle : (1#(w + 1)) ≤ v := by rw [BitVec.le_def, h1, h.toNat_eq]; omega
  rw [BitVec.toNat_sub_of_le hle, h1, h.toNat_eq]; omega

end Holds

end Latch
