import MemfdBuffer.Lib.Tally
import Mathlib.Data.Option.Basic

/-!
# Objects in numbered slots

A list of slots, each with an object or `none` where the object is gone. `get` reads a slot, `total f`
weighs all objects. An overwrite moves the weight of one object out and that of another in.
-/

namespace Slots

open Tally

variable {α : Type*} {f g : α → Nat} {l : List (Option α)} {x y : α} {i j k : Nat} {o : Option α}

/-- The object in slot `i`. -/
def get (l : List (Option α)) (i : Nat) : Option α := (l[i]?).join

theorem get_eq_some : get l i = some x ↔ l[i]? = some (some x) := Option.join_eq_some_iff

theorem lt_length (h : get l i = some x) : i < l.length :=
  (List.getElem?_eq_some_iff.1 (get_eq_some.1 h)).1

theorem get_length : get l l.length = none := by simp [get]

theorem get_set (h : get l i = some x) : get (l.set i o) k = if k = i then o else get l k := by
  unfold get
  by_cases hk : k = i
  · subst hk
    rw [if_pos rfl, List.getElem?_set_self (lt_length h), Option.join_some]
  · rw [if_neg hk, List.getElem?_set_ne (Ne.symm hk)]

theorem set_self (h : get l i = some x) : l.set i (some x) = l := by
  obtain ⟨hi, he⟩ := List.getElem?_eq_some_iff.1 (get_eq_some.1 h)
  rw [← he]
  exact List.set_getElem_self hi

/-- Clearing an empty slot. -/
theorem set_none (h : get l i = none) : l.set i none = l := by
  rcases Nat.lt_or_ge i l.length with hi | hi
  · have he : l[i] = none := by
      rw [get, List.getElem?_eq_getElem hi] at h
      simpa using h
    conv_rhs => rw [← List.set_getElem_self hi, he]
  · exact List.set_eq_of_length_le hi

theorem get_append : get (l ++ [some x]) k = if k = l.length then some x else get l k := by
  unfold get
  by_cases hk : k = l.length
  · subst hk
    rw [if_pos rfl, List.getElem?_concat_length, Option.join_some]
  · rw [if_neg hk]
    rcases Nat.lt_or_gt_of_ne hk with hk | hk
    · rw [List.getElem?_append_left hk]
    · rw [List.getElem?_eq_none (by simp; omega), List.getElem?_eq_none (by omega)]

/-- The weight of all objects. -/
def total (f : α → Nat) (l : List (Option α)) : Nat := tally (fun o => o.elim 0 f) l

@[simp] theorem total_nil : total f [] = 0 := rfl

theorem total_set (h : get l i = some x) (o : Option α) :
    total f (l.set i o) + f x = total f l + o.elim 0 f :=
  tally_set (get_eq_some.1 h) o

@[simp] theorem total_append : total f (l ++ [some x]) = total f l + f x := by simp [total]

theorem le_total (h : get l i = some x) : f x ≤ total f l :=
  le_tally (f := fun o => o.elim 0 f) (get_eq_some.1 h)

theorem add_le_total (hi : get l i = some x) (hj : get l j = some y) (hne : i ≠ j) :
    f x + f y ≤ total f l :=
  add_le_tally (f := fun o => o.elim 0 f) (get_eq_some.1 hi) (get_eq_some.1 hj) hne

theorem exists_of_total_pos (h : 0 < total f l) : ∃ i x, get l i = some x ∧ 0 < f x := by
  obtain ⟨i, o, hi, ho⟩ := exists_of_tally_pos h
  cases o with
  | none => cases ho
  | some x => exact ⟨i, x, get_eq_some.2 hi, ho⟩

theorem total_eq_zero (h : ∀ i x, get l i = some x → f x = 0) : total f l = 0 :=
  tally_eq_zero fun i o hi => by
    cases o with
    | none => rfl
    | some x => exact h i x (get_eq_some.2 hi)

end Slots
