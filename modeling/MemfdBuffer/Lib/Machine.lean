import Mathlib.Data.Option.Basic

/-!
# Machines given by an executable step function

A machine is a partial step function `step : σ → α → Option σ` (`none`: the action is not enabled).
`ReachIf step init ok` holds of the states reached from an initial state by actions that each
satisfy `ok` in the state they leave; `Reach` puts no condition on the actions. The one induction a
safety proof needs is `ReachIf.inv`.
-/

namespace Machine

variable {σ α : Type*} {step : σ → α → Option σ} {init : σ → Prop} {ok ok' : σ → α → Prop}
  {s s' : σ}

/-- States reached by actions that satisfy `ok` where they are taken. -/
inductive ReachIf (step : σ → α → Option σ) (init : σ → Prop) (ok : σ → α → Prop) : σ → Prop
  | start {s : σ} : init s → ReachIf step init ok s
  | next {s : σ} {a : α} {s' : σ} :
      ReachIf step init ok s → ok s a → step s a = some s' → ReachIf step init ok s'

/-- States reached by any actions. -/
abbrev Reach (step : σ → α → Option σ) (init : σ → Prop) : σ → Prop :=
  ReachIf step init fun _ _ => True

/-- The invariant rule: true at the start, kept by every permitted step. -/
theorem ReachIf.inv {P : σ → Prop} (h0 : ∀ s, init s → P s)
    (hs : ∀ s a s', P s → ok s a → step s a = some s' → P s') (h : ReachIf step init ok s) : P s := by
  induction h with
  | start hi => exact h0 _ hi
  | next _ hok hst ih => exact hs _ _ _ ih hok hst

/-- The invariant rule relative to an invariant already known of the same states. -/
theorem ReachIf.inv_of {P Q : σ → Prop} (hQ : ∀ s, ReachIf step init ok s → Q s)
    (h0 : ∀ s, init s → P s)
    (hs : ∀ s a s', Q s → P s → ok s a → step s a = some s' → P s')
    (h : ReachIf step init ok s) : P s := by
  induction h with
  | start hi => exact h0 _ hi
  | next hr hok hst ih => exact hs _ _ _ (hQ _ hr) ih hok hst

theorem ReachIf.mono (hok : ∀ s a, ok s a → ok' s a) (h : ReachIf step init ok s) :
    ReachIf step init ok' s := by
  induction h with
  | start hi => exact .start hi
  | next _ ha hst ih => exact .next ih (hok _ _ ha) hst

theorem ReachIf.reach (h : ReachIf step init ok s) : Reach step init s :=
  h.mono fun _ _ _ => trivial

/-- Taking a list of actions in order. -/
def run (step : σ → α → Option σ) : σ → List α → Option σ
  | s, [] => some s
  | s, a :: as => (step s a).bind fun s' => run step s' as

@[simp] theorem run_nil : run step s [] = some s := rfl

theorem run_cons {a : α} {as : List α} :
    run step s (a :: as) = (step s a).bind fun s' => run step s' as := rfl

theorem run_append (as bs : List α) :
    run step s (as ++ bs) = (run step s as).bind fun s' => run step s' bs := by
  induction as generalizing s with
  | nil => rfl
  | cons a as ih =>
    rw [List.cons_append, run_cons, run_cons]
    cases step s a with
    | none => rfl
    | some s₁ => exact ih

/-- A run has a state behind each of its actions. -/
theorem run_take {as : List α} (h : run step s as = some s') (n : Nat) : ∃ t, run step s (as.take n) = some t := by
  rw [← List.take_append_drop n as, run_append] at h
  obtain ⟨t, ht, -⟩ := Option.bind_eq_some_iff.1 h
  exact ⟨t, ht⟩

/-- A run from a reached state reaches its end. -/
theorem Reach.run {as : List α} (h : Reach step init s) (hr : Machine.run step s as = some s') :
    Reach step init s' := by
  induction as generalizing s with
  | nil => cases hr; exact h
  | cons a as ih =>
    rw [run_cons] at hr
    obtain ⟨s₁, h1, h2⟩ := Option.bind_eq_some_iff.1 hr
    exact ih (.next h trivial h1) h2

/-- Every action of the run satisfies `ok` in the state where it is taken. -/
def Along (step : σ → α → Option σ) (ok : σ → α → Prop) : σ → List α → Prop
  | _, [] => True
  | s, a :: as => ok s a ∧ ∀ s' ∈ step s a, Along step ok s' as

instance Along.decidable [∀ s a, Decidable (ok s a)] :
    ∀ (s : σ) (as : List α), Decidable (Along step ok s as)
  | _, [] => .isTrue trivial
  | s, a :: as =>
    have := fun s' => Along.decidable s' as
    inferInstanceAs (Decidable (ok s a ∧ ∀ s' ∈ step s a, Along step ok s' as))

/-- A run whose actions all satisfy `ok` stays among the `ReachIf` states. -/
theorem ReachIf.run {as : List α} (h : ReachIf step init ok s) (ha : Along step ok s as)
    (hr : Machine.run step s as = some s') : ReachIf step init ok s' := by
  induction as generalizing s with
  | nil => cases hr; exact h
  | cons a as ih =>
    rw [run_cons] at hr
    obtain ⟨s₁, h1, h2⟩ := Option.bind_eq_some_iff.1 hr
    exact ih (.next h ha.1 h1) (ha.2 s₁ h1) h2

theorem along_cons {a : α} {as : List α} (h : step s a = some s') :
    Along step ok s (a :: as) ↔ ok s a ∧ Along step ok s' as := by
  refine and_congr_right fun _ => ⟨fun ha => ha s' h, fun ha t ht => ?_⟩
  rw [h] at ht
  cases ht
  exact ha

/-- Where a step keeps `P` exactly if it satisfies `ok`, a run stays in `P` exactly if all its steps do. -/
theorem along_iff {I P : σ → Prop} (hI : ∀ s a s', I s → step s a = some s' → I s')
    (hP : ∀ s a s', I s → P s → step s a = some s' → (P s' ↔ ok s a)) {as : List α} (hi : I s) (hp : P s)
    (hr : run step s as = some s') :
    Along step ok s as ↔ ∀ bs, bs <+: as → ∀ t, run step s bs = some t → P t := by
  induction as generalizing s with
  | nil =>
    refine ⟨fun _ bs hbs t ht => ?_, fun _ => trivial⟩
    rw [List.prefix_nil.1 hbs] at ht
    cases ht
    exact hp
  | cons a as ih =>
    obtain ⟨s₁, h1, h2⟩ := Option.bind_eq_some_iff.1 hr
    rw [along_cons h1, ← hP s a s₁ hi hp h1]
    constructor
    · rintro ⟨hp₁, ha⟩ bs hbs t ht
      cases bs with
      | nil => cases ht; exact hp
      | cons b bs =>
        obtain ⟨rfl, hpre⟩ := List.cons_prefix_cons.1 hbs
        rw [run_cons, h1] at ht
        exact (ih (hI s b s₁ hi h1) hp₁ h2).1 ha bs hpre t ht
    · intro hall
      have hp₁ : P s₁ := hall [a] (List.prefix_append [a] as) s₁ (by rw [run_cons, h1]; rfl)
      refine ⟨hp₁, (ih (hI s a s₁ hi h1) hp₁ h2).2 fun bs hbs t ht => ?_⟩
      exact hall (a :: bs) (List.cons_prefix_cons.2 ⟨rfl, hbs⟩) t (by rw [run_cons, h1]; exact ht)

end Machine
