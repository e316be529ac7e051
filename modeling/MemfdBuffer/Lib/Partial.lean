import Mathlib.Data.List.Basic

/-!
# Lists known in part

A list of options says of some entries what they are and of the others nothing. `Agrees a l` holds where `l` has the
same length and every entry that `a` knows. The lemmas are what appending, cutting and overwriting do to both sides.
-/

namespace Partial

variable {α : Type*} {a a' : List (Option α)} {l l' : List α} {i n : Nat} {x : α}

/-- `l` is a list of the length of `a` with the entries that `a` knows. -/
structure Agrees (a : List (Option α)) (l : List α) : Prop where
  length : l.length = a.length
  get {i : Nat} {x : α} : a[i]? = some (some x) → l[i]? = some x

/-- The first `n` entries of `a`, and unknown ones if `a` is too short. -/
def resized (a : List (Option α)) (n : Nat) : List (Option α) := a.take n ++ List.replicate (n - a.length) none

@[simp] theorem length_resized : (resized a n).length = n := by
  unfold resized
  rw [List.length_append, List.length_take, List.length_replicate]
  omega

namespace Agrees

theorem nil : Agrees ([] : List (Option α)) [] := by
  constructor
  · rfl
  · intro i x h
    simp at h

theorem unknown (h : l.length = n) : Agrees (List.replicate n none) l := by
  constructor
  · rw [h, List.length_replicate]
  · intro i x hi
    rw [List.getElem?_replicate] at hi
    split at hi
    · cases hi
    · cases hi

/-- One entry overwritten. -/
theorem set (h : Agrees a l) (i : Nat) (x : α) : Agrees (a.set i (some x)) (l.set i x) := by
  constructor
  · rw [List.length_set, List.length_set]
    exact h.length
  · intro k y hk
    rw [List.getElem?_set] at hk ⊢
    split
    · rename_i hik
      rw [if_pos hik] at hk
      have hlen := h.length
      split at hk
      · cases hk
        rw [if_pos (by omega)]
      · cases hk
    · rename_i hik
      rw [if_neg hik] at hk
      exact h.get hk

/-- The old entries are at the start of the new list as far as both reach. -/
theorem resized (h : Agrees a l) (hlen : l'.length = n) (hpre : l'.take (min n l.length) = l.take (min n l.length)) :
    Agrees (Partial.resized a n) l' := by
  constructor
  · rw [hlen, length_resized]
  · intro k y hk
    have hlt : k < min n l.length := by
      have hlength := h.length
      unfold Partial.resized at hk
      rcases Nat.lt_or_ge k (a.take n).length with hlt | hge
      · rw [List.length_take] at hlt
        omega
      · rw [List.getElem?_append_right hge, List.getElem?_replicate] at hk
        split at hk
        · cases hk
        · cases hk
    have hka : a[k]? = some (some y) := by
      have hlength := h.length
      unfold Partial.resized at hk
      rw [List.getElem?_append_left (by rw [List.length_take]; omega), List.getElem?_take_of_lt (by omega)] at hk
      exact hk
    have hget := congrArg (fun m => m[k]?) hpre
    simp only [List.getElem?_take_of_lt hlt] at hget
    rw [hget]
    exact h.get hka

end Agrees

end Partial
