import Mathlib.Data.List.Basic
import Mathlib.Data.Nat.Digits.Lemmas

/-!
# Texts with a separator

A text that is made of parts with a character between them can be cut at its first or at its last separator, where the
part on that side does not contain it. Numbers in decimal contain no separator and are told by their text.
-/

namespace Separator

variable {α : Type*} {c : α} {l l' r r' : List α}

/-- Cut at the first `c`. -/
theorem first_inj (h : c ∉ l) (h' : c ∉ l') (he : l ++ c :: r = l' ++ c :: r') : l = l' ∧ r = r' := by
  induction l generalizing l' with
  | nil =>
    cases l' with
    | nil => exact ⟨rfl, (List.cons.inj he).2⟩
    | cons a l' => exact absurd (List.mem_cons.2 (.inl (List.cons.inj he).1)) h'
  | cons a l ih =>
    cases l' with
    | nil => exact absurd (List.mem_cons.2 (.inl (List.cons.inj he).1.symm)) h
    | cons b l' =>
      obtain ⟨rfl, hcut⟩ := List.cons.inj he
      obtain ⟨rfl, hr⟩ := ih (fun hc => h (List.mem_cons_of_mem _ hc)) (fun hc => h' (List.mem_cons_of_mem _ hc)) hcut
      exact ⟨rfl, hr⟩

/-- Cut at the last `c`. -/
theorem last_inj (h : c ∉ r) (h' : c ∉ r') (he : l ++ c :: r = l' ++ c :: r') : l = l' ∧ r = r' := by
  have hrev := congrArg List.reverse he
  simp only [List.reverse_append, List.reverse_cons, List.append_assoc, List.singleton_append] at hrev
  obtain ⟨hr, hl⟩ := first_inj (by simpa using h) (by simpa using h') hrev
  exact ⟨List.reverse_inj.1 hl, List.reverse_inj.1 hr⟩

theorem notMem_toString {c : Char} (hc : c.isDigit = false) (n : Nat) : c ∉ (toString n).toList := by
  rw [Nat.toString_eq_repr, Nat.toList_repr]
  intro hmem
  have hdigit := Nat.isDigit_of_mem_toDigits (by decide) (by decide) hmem
  rw [hc] at hdigit
  cases hdigit

theorem toList_toString_inj {m n : Nat} (h : (toString m).toList = (toString n).toList) : m = n := by
  rw [Nat.toString_eq_repr, Nat.toString_eq_repr, Nat.toList_repr, Nat.toList_repr] at h
  rw [← Nat.ofDigitChars_toDigits (b := 10) (n := m) (by omega) (by omega), h]
  exact Nat.ofDigitChars_toDigits (by omega) (by omega)

end Separator
