import MemfdBuffer.Lib.Machine
import Mathlib.Order.Basic
import Mathlib.Data.Nat.Init

/-!
# Fair runs

An infinite run of a machine is fair to a group of actions if it takes one of them after every time from which on one
is enabled all along. The group may depend on the state: a call that waits for somebody else is left out while it waits.
Where the group is enabled until something happens, and each of its actions brings it nearer, it does happen.
-/

namespace Machine

variable {σ α : Type*} {step : σ → α → Option σ}

/-- An infinite run. -/
structure Run (step : σ → α → Option σ) where
  state : Nat → σ
  act : Nat → α
  next (n : Nat) : step (state n) (act n) = some (state (n + 1))

namespace Run
variable (r : Run step)

/-- An action of the group is possible. -/
def Enabled (step : σ → α → Option σ) (g : σ → α → Prop) (s : σ) : Prop := ∃ a s', g s a ∧ step s a = some s'

def Fair (g : σ → α → Prop) : Prop :=
  ∀ n, (∀ m, n ≤ m → Enabled step g (r.state m)) → ∃ m, n ≤ m ∧ g (r.state m) (r.act m)

/-- `Q` in all later states of a run that stays in `I`, one step at a time. -/
theorem stays {I Q : σ → Prop} {n : Nat} (hn : I (r.state n)) (hQ : ∀ m, n ≤ m → ¬ Q (r.state m))
    (h : ∀ s a s', I s → ¬ Q s → step s a = some s' → Q s' ∨ I s') : ∀ m, n ≤ m → I (r.state m) := fun m hm => by
  induction m, hm using Nat.le_induction with
  | base => exact hn
  | succ m hm ih =>
    rcases h _ _ _ ih (hQ m hm) (r.next m) with hq | hi
    · exact absurd hq (hQ _ (by omega))
    · exact hi

/-- The rule for one helpful group: it is enabled until `Q` holds, where `A` does, which holds all along; its actions
decrease a measure that no action increases. -/
theorem leadsTo {g : σ → α → Prop} {A I Q : σ → Prop} {μ : σ → Nat} {n : Nat} (hfair : r.Fair g)
    (hA : ∀ m, n ≤ m → A (r.state m)) (henabled : ∀ s, A s → I s → ¬ Q s → Enabled step g s)
    (hstep : ∀ s a s', I s → ¬ Q s → step s a = some s' → Q s' ∨ I s' ∧ μ s' ≤ μ s ∧ (g s a → μ s' < μ s))
    (hn : I (r.state n)) : ∃ m, n ≤ m ∧ Q (r.state m) := by
  generalize hk : μ (r.state n) = k
  induction k using Nat.strong_induction_on generalizing n with
  | _ k ih =>
    by_contra hno
    have hQ : ∀ m, n ≤ m → ¬ Q (r.state m) := fun m hm hq => hno ⟨m, hm, hq⟩
    have hI := r.stays hn hQ fun s a s' hi hq hs => (hstep s a s' hi hq hs).imp_right And.left
    have hle : ∀ m, n ≤ m → μ (r.state m) ≤ k := fun m hm => by
      induction m, hm using Nat.le_induction with
      | base => exact Nat.le_of_eq hk
      | succ m hm ih =>
        rcases hstep _ _ _ (hI m hm) (hQ m hm) (r.next m) with hq | ⟨-, hμ, -⟩
        · exact absurd hq (hQ _ (by omega))
        · exact Nat.le_trans hμ ih
    obtain ⟨m, hm, hg⟩ := hfair n fun m hm => henabled _ (hA m hm) (hI m hm) (hQ m hm)
    rcases hstep _ _ _ (hI m hm) (hQ m hm) (r.next m) with hq | ⟨hi, -, hlt⟩
    · exact hQ (m + 1) (by omega) hq
    · obtain ⟨m', hm', hq⟩ :=
        ih _ (Nat.lt_of_lt_of_le (hlt hg) (hle m hm)) (fun m' hm' => hA m' (by omega)) hi rfl
      exact hQ m' (by omega) hq

section
variable {s₀ s s' : σ} {as : List α} {a b : α} {g : σ → α → Prop} {P : σ → Prop}

/-- A finite run that in the end goes to and fro for ever. -/
def toAndFro (h : Machine.run step s₀ as = some s) (hto : step s a = some s') (hfro : step s' b = some s) :
    Run step where
  state n :=
    if n < as.length then (Machine.run step s₀ (as.take n)).getD s₀
    else if (n - as.length) % 2 = 0 then s else s'
  act n := (as[n]?).getD (if (n - as.length) % 2 = 0 then a else b)
  next n := by
    by_cases hn : n < as.length
    · obtain ⟨t, ht⟩ := run_take h n
      obtain ⟨t', ht'⟩ := run_take h (n + 1)
      have hstep : step t as[n] = some t' := by
        rw [List.take_add_one, List.getElem?_eq_getElem hn, Option.toList_some, run_append, ht,
          Option.bind_some, run_cons] at ht'
        obtain ⟨t₁, h₁, h₂⟩ := Option.bind_eq_some_iff.1 ht'
        cases h₂
        exact h₁
      rw [if_pos hn, ht, Option.getD_some, List.getElem?_eq_getElem hn, Option.getD_some, hstep]
      by_cases hlast : n + 1 < as.length
      · rw [if_pos hlast, ht', Option.getD_some]
      · have hlen : n + 1 = as.length := by omega
        rw [if_neg hlast, hlen, Nat.sub_self, if_pos rfl]
        rw [hlen, List.take_length, h] at ht'
        exact ht'.symm
    · rw [if_neg hn, if_neg (by omega : ¬ n + 1 < as.length), List.getElem?_eq_none (Nat.not_lt.1 hn), Option.getD_none]
      rcases Nat.mod_two_eq_zero_or_one (n - as.length) with hmod | hmod
      · rw [if_pos hmod, if_pos hmod, if_neg (by omega)]
        exact hto
      · rw [if_neg (by omega), if_neg (by omega), if_pos (by omega)]
        exact hfro

variable {h : Machine.run step s₀ as = some s} {hto : step s a = some s'} {hfro : step s' b = some s}

/-- What does not become possible in its end it may leave out. -/
theorem toAndFro_fair (hnot : ¬ Enabled step g s) : (toAndFro h hto hfro).Fair g := fun n hall => by
  have hstate : (toAndFro h hto hfro).state (as.length + 2 * n) = s := by
    show (if as.length + 2 * n < as.length then _ else if (as.length + 2 * n - as.length) % 2 = 0 then s else s') = s
    rw [if_neg (by omega), if_pos (by omega)]
  exact absurd (hstate ▸ hall (as.length + 2 * n) (by omega)) hnot

theorem toAndFro_all (hP : ∀ n, n < as.length → P ((Machine.run step s₀ (as.take n)).getD s₀)) (hs : P s) (hs' : P s')
    (n : Nat) : P ((toAndFro h hto hfro).state n) := by
  show P (if n < as.length then _ else if (n - as.length) % 2 = 0 then s else s')
  split
  · exact hP n ‹_›
  · split
    · exact hs
    · exact hs'

end

end Run

end Machine
