import Mathlib.Data.List.Forall2

/-!
# Simulation of labelled steps

A path is the list of the labels taken with the states they lead to. Where every step from a related state can be
followed under the same label, every path can, with related states all along it.
-/

namespace Simulation

variable {σ τ ℓ : Type*} {step : σ → ℓ → σ → Prop} {step' : τ → ℓ → τ → Prop} {R : σ → τ → Prop} {s s' : σ} {t : τ}
  {path : List (ℓ × σ)}

inductive Path (step : σ → ℓ → σ → Prop) (s : σ) : List (ℓ × σ) → σ → Prop
  | nil : Path step s [] s
  | snoc {path : List (ℓ × σ)} {s₁ : σ} {l : ℓ} {s' : σ} :
      Path step s path s₁ → step s₁ l s' → Path step s (path ++ [(l, s')]) s'

/-- Steps of `step` can be followed by steps of `step'` along `R`. -/
def Forward (step : σ → ℓ → σ → Prop) (step' : τ → ℓ → τ → Prop) (R : σ → τ → Prop) : Prop :=
  ∀ (s : σ) (l : ℓ) (s' : σ) (t : τ), R s t → step s l s' → ∃ t', step' t l t' ∧ R s' t'

theorem Forward.follow (hf : Forward step step' R) (h : Path step s path s') (hR : R s t) :
    ∃ path' t', Path step' t path' t' ∧ R s' t' ∧ List.Forall₂ (fun x y => x.1 = y.1 ∧ R x.2 y.2) path path' := by
  induction h with
  | nil => exact ⟨[], t, .nil, hR, .nil⟩
  | snoc _ hstep ih =>
    obtain ⟨path', t₁, hp, hR₁, hall⟩ := ih
    obtain ⟨t', hstep', hR'⟩ := hf _ _ _ _ hR₁ hstep
    exact ⟨_, t', .snoc hp hstep', hR', List.rel_append hall (.cons ⟨rfl, hR'⟩ .nil)⟩

end Simulation
