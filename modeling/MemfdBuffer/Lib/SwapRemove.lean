import Mathlib.Data.List.Perm.Basic
import Mathlib.Data.List.Nodup

/-!
# Swap and pop

Removing an entry of a vector by overwriting it with the last one and popping the back. As a bag the
vector loses exactly that entry.
-/

namespace SwapRemove

open scoped List

variable {α : Type*} {l : List α} {i : Nat} {x : α}

/-- `l[i] = l.back(); l.pop_back();` -/
def swapRemove (l : List α) (i : Nat) : List α :=
  match l.getLast? with
  | some y => (l.set i y).dropLast
  | none => []

theorem swapRemove_append {y : α} (l : List α) (i : Nat) :
    swapRemove (l ++ [y]) i = ((l ++ [y]).set i y).dropLast := by
  simp [swapRemove]

/-- The entry removed and the rest are the vector, up to order. -/
theorem swapRemove_perm (h : l[i]? = some x) : (x :: swapRemove l i).Perm l := by
  rcases List.eq_nil_or_concat l with rfl | ⟨l', y, rfl⟩
  · simp at h
  · rw [List.concat_eq_append] at h ⊢
    rw [swapRemove_append]
    by_cases hi : i < l'.length
    · rw [List.getElem?_append_left hi] at h
      rw [List.set_append_left _ _ hi, List.dropLast_concat]
      have hx := (List.getElem?_eq_some_iff.1 h).2
      calc x :: l'.set i y ~ x :: y :: l'.eraseIdx i := (List.set_perm_cons_eraseIdx hi y).cons x
        _ ~ y :: x :: l'.eraseIdx i := .swap ..
        _ ~ y :: l' := by rw [← hx]; exact (List.getElem_cons_eraseIdx_perm hi).cons y
        _ ~ l' ++ [y] := (List.perm_append_singleton y l').symm
    · obtain ⟨hlt, hx⟩ := List.getElem?_eq_some_iff.1 h
      have hi' : i = l'.length := by simp at hlt; omega
      subst hi'
      simp only [List.getElem_concat_length] at hx
      subst hx
      simp only [List.set_append_right _ _ (Nat.le_refl _), Nat.sub_self, List.set_cons_zero,
        List.dropLast_concat]
      exact (List.perm_append_singleton _ _).symm

theorem nodup_swapRemove (hl : l.Nodup) (h : l[i]? = some x) : (swapRemove l i).Nodup ∧ x ∉ swapRemove l i := by
  have := (swapRemove_perm h).nodup_iff.2 hl
  exact ⟨(List.nodup_cons.1 this).2, (List.nodup_cons.1 this).1⟩

theorem mem_swapRemove {y : α} (hl : l.Nodup) (h : l[i]? = some x) :
    y ∈ swapRemove l i ↔ y ∈ l ∧ y ≠ x := by
  rw [← (swapRemove_perm h).mem_iff, List.mem_cons]
  have hx := (nodup_swapRemove hl h).2
  constructor
  · exact fun hy => ⟨.inr hy, fun he => hx (he ▸ hy)⟩
  · rintro ⟨he | hy, hne⟩
    · exact absurd he hne
    · exact hy

end SwapRemove
