import Mathlib.Data.List.Basic

/-!
# Numbered slots and weighted counts over them

Systems that keep their objects in numbered slots overwrite one slot at a time or append a new one.
The first lemmas say what is in the slots afterwards; `tally f l` is the total weight of a list, and
its lemmas are stated additively so that no subtraction of naturals appears.
-/

namespace Tally

variable {β γ : Type*} {f : β → Nat} {l l' : List β} {x y : β} {i : Nat}

theorem get_of_initial (h : l <+: l') (hi : l[i]? = some x) : l'[i]? = some x := by
  obtain ⟨t, rfl⟩ := h
  rw [List.getElem?_append_left (List.getElem?_eq_some_iff.1 hi).1, hi]

/-- After an overwrite every entry is old or the new one. -/
theorem get_set_cases {k : Nat} (h : (l.set i x)[k]? = some y) : l[k]? = some y ∨ k = i ∧ y = x := by
  by_cases hk : i = k
  · subst hk
    rw [List.getElem?_set_self (by simpa using (List.getElem?_eq_some_iff.1 h).1)] at h
    exact .inr ⟨rfl, (Option.some.inj h).symm⟩
  · rw [List.getElem?_set_ne hk] at h
    exact .inl h

theorem get_append_cases (h : (l ++ [x])[i]? = some y) : l[i]? = some y ∨ i = l.length ∧ y = x := by
  rcases Nat.lt_trichotomy i l.length with hi | hi | hi
  · rw [List.getElem?_append_left hi] at h
    exact .inl h
  · subst hi
    simp only [List.getElem?_concat_length, Option.some.injEq] at h
    exact .inr ⟨rfl, h.symm⟩
  · rw [List.getElem?_eq_none (by simp; omega)] at h
    cases h

theorem get_set_self {x₀ : β} (h : l[i]? = some x₀) : (l.set i x)[i]? = some x := by
  rw [List.getElem?_set_self (List.getElem?_eq_some_iff.1 h).1]

/-- Total weight of the entries of `l`. -/
def tally (f : β → Nat) : List β → Nat
  | [] => 0
  | x :: l => f x + tally f l

@[simp] theorem tally_nil : tally f [] = 0 := rfl

@[simp] theorem tally_cons : tally f (x :: l) = f x + tally f l := rfl

@[simp] theorem tally_append : tally f (l ++ l') = tally f l + tally f l' := by
  induction l with
  | nil => simp
  | cons x l ih => simp only [List.cons_append, tally_cons, ih, Nat.add_assoc]

theorem tally_add (g : β → Nat) : tally (fun x => f x + g x) l = tally f l + tally g l := by
  induction l with
  | nil => rfl
  | cons x l ih => simp only [tally_cons, ih]; omega

theorem tally_congr {g : β → Nat} (h : ∀ x ∈ l, f x = g x) : tally f l = tally g l := by
  induction l with
  | nil => rfl
  | cons x l ih =>
    rw [tally_cons, tally_cons, h x (by simp), ih fun y hy => h y (by simp [hy])]

/-- A weight of ones and zeros counts. -/
theorem tally_ite (p : β → Bool) : tally (fun x => if p x then 1 else 0) l = l.countP p := by
  induction l with
  | nil => rfl
  | cons x l ih =>
    rw [tally_cons, ih, List.countP_cons]; omega

/-- Overwriting slot `i`: the old weight leaves, the new one enters. -/
theorem tally_set (h : l[i]? = some x) (y : β) : tally f (l.set i y) + f x = tally f l + f y := by
  induction l generalizing i with
  | nil => simp at h
  | cons a l ih =>
    cases i with
    | zero =>
      simp only [List.getElem?_cons_zero, Option.some.injEq] at h
      subst h
      simp only [List.set_cons_zero, tally_cons]; omega
    | succ i =>
      simp only [List.getElem?_cons_succ] at h
      have := ih h
      simp only [List.set_cons_succ, tally_cons]; omega

theorem le_tally (h : l[i]? = some x) : f x ≤ tally f l := by
  induction l generalizing i with
  | nil => simp at h
  | cons a l ih =>
    cases i with
    | zero =>
      simp only [List.getElem?_cons_zero, Option.some.injEq] at h
      subst h
      simp
    | succ i =>
      have := ih (by simpa using h)
      simp only [tally_cons]; omega

theorem tally_eq_zero (h : ∀ (i : Nat) (x : β), l[i]? = some x → f x = 0) : tally f l = 0 := by
  induction l with
  | nil => rfl
  | cons a l ih =>
    have h0 := h 0 a (by simp)
    have h1 := ih fun i x hx => h (i + 1) x (by simpa using hx)
    simp [h0, h1]

theorem exists_of_tally_pos (h : 0 < tally f l) :
    ∃ (i : Nat) (x : β), l[i]? = some x ∧ 0 < f x := by
  by_contra hn
  have : tally f l = 0 := tally_eq_zero fun i x hx => by
    by_contra h0
    exact hn ⟨i, x, hx, Nat.pos_of_ne_zero h0⟩
  omega

/-- Two different slots weigh at most the whole. -/
theorem add_le_tally {j : Nat} (hi : l[i]? = some x) (hj : l[j]? = some y) (hne : i ≠ j) :
    f x + f y ≤ tally f l := by
  induction l generalizing i j with
  | nil => simp at hi
  | cons a l ih =>
    cases i with
    | zero =>
      cases j with
      | zero => exact absurd rfl hne
      | succ j =>
        simp only [List.getElem?_cons_zero, Option.some.injEq] at hi
        have := le_tally (f := f) (l := l) (by simpa using hj)
        subst hi
        simp only [tally_cons]; omega
    | succ i =>
      cases j with
      | zero =>
        simp only [List.getElem?_cons_zero, Option.some.injEq] at hj
        have := le_tally (f := f) (l := l) (by simpa using hi)
        subst hj
        simp only [tally_cons]; omega
      | succ j =>
        have := ih (i := i) (j := j) (by simpa using hi) (by simpa using hj) (by omega)
        simp only [tally_cons]; omega

end Tally
