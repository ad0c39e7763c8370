import Mathlib.Data.List.Induction

/-!
# Runs of partial transition functions

A transition function `step : σ → α → Option σ` takes a state and an input to
the next state, or declines.  `run` iterates it over a list of inputs, and a
list of inputs *is a run* from `s` when `run step s as` is some state.

Three rules carry the developments built on top.

* `invariant_of_run` — a property every step preserves holds at the end of a
  run.
* `exists_run_of_progress` — when no state of a kind declines an input, there
  are runs to speak of.
* `eachStep_iff_of_decided` — when, under an invariant, each single step is good
  *exactly* when a condition on its state and input holds, then a whole run is
  good exactly when all its steps meet the condition.  The point of the rule is
  that the invariant only has to survive the *good* steps.
-/

namespace PartialStep

universe u v

variable {σ : Type u} {α : Type v} {step : σ → α → Option σ}

/-- Iterate a partial transition function over a list of inputs; `none` as soon
as one of them is declined. -/
def run (step : σ → α → Option σ) : σ → List α → Option σ
  | s, [] => some s
  | s, a :: as => (step s a).bind fun s' => run step s' as

@[simp] theorem run_nil (s : σ) : run step s [] = some s := rfl

theorem run_cons (s : σ) (a : α) (as : List α) :
    run step s (a :: as) = (step s a).bind fun s' => run step s' as := rfl

theorem run_append (s : σ) (as bs : List α) :
    run step s (as ++ bs) = (run step s as).bind fun s' => run step s' bs := by
  induction as generalizing s with
  | nil => rfl
  | cons a as ih =>
      rw [List.cons_append, run_cons, run_cons, Option.bind_assoc]
      exact congrArg _ (funext fun s' => ih s')

/-- A run with one input more is a run followed by one step. -/
theorem run_concat_eq_some {s t : σ} {as : List α} {a : α} :
    run step s (as ++ [a]) = some t ↔
      ∃ s', run step s as = some s' ∧ step s' a = some t := by
  rw [run_append, Option.bind_eq_some_iff]
  simp [run_cons]

/-- **Invariance.**  What every step preserves, every run preserves. -/
theorem invariant_of_run {P : σ → Prop}
    (preserved : ∀ {s a s'}, P s → step s a = some s' → P s')
    {s t : σ} {as : List α} (start : P s) (h : run step s as = some t) : P t := by
  induction as generalizing s with
  | nil => cases h; exact start
  | cons a as ih =>
      rw [run_cons, Option.bind_eq_some_iff] at h
      obtain ⟨s', hstep, hrest⟩ := h
      exact ih (preserved start hstep) hrest

/-- **Progress.**  When every state with a property can take any input to a
state that has it again, every list of inputs is a run. -/
theorem exists_run_of_progress {P : σ → Prop}
    (progress : ∀ {s} a, P s → ∃ s', step s a = some s' ∧ P s') {s : σ} (start : P s)
    (as : List α) : ∃ t, run step s as = some t ∧ P t := by
  induction as generalizing s with
  | nil => exact ⟨s, rfl, start⟩
  | cons a as ih =>
      obtain ⟨s', hstep, hs'⟩ := progress a start
      obtain ⟨t, hrun, ht⟩ := ih hs'
      exact ⟨t, by rw [run_cons, hstep]; exact hrun, ht⟩

/-! ## Properties of the steps of a run -/

/-- `P` holds of every step of the run of `as` from `s`, and is told the inputs
already taken, the state before the step, its input and the state after it. -/
def EachStep (step : σ → α → Option σ) (P : List α → σ → α → σ → Prop)
    (s : σ) (as : List α) : Prop :=
  ∀ before a after s₁ s₂, as = before ++ a :: after →
    run step s before = some s₁ → step s₁ a = some s₂ → P before s₁ a s₂

theorem eachStep_nil {P : List α → σ → α → σ → Prop} (s : σ) : EachStep step P s [] := by
  intro before a after _ _ split
  simp at split

theorem eachStep_cons {P : List α → σ → α → σ → Prop} {s : σ} {a : α} {as : List α} :
    EachStep step P s (a :: as) ↔ ∀ s', step s a = some s' →
      P [] s a s' ∧ EachStep step (fun before => P (a :: before)) s' as := by
  constructor
  · intro each s' hstep
    refine ⟨each [] a as s s' rfl rfl hstep, ?_⟩
    intro before b after s₁ s₂ split hrun
    refine each (a :: before) b after s₁ s₂ (by rw [split, List.cons_append]) ?_
    rw [run_cons, hstep]
    exact hrun
  · intro each before b after s₁ s₂ split hrun hstep
    cases before with
    | nil =>
        cases hrun
        obtain ⟨rfl, rfl⟩ := List.cons.inj split
        exact (each s₂ hstep).1
    | cons c before =>
        obtain ⟨rfl, split'⟩ := List.cons.inj split
        obtain ⟨s', hfirst, hrest⟩ := Option.bind_eq_some_iff.mp hrun
        exact (each s' hfirst).2 before b after s₁ s₂ split' hrest hstep

/-- What holds of the inputs whatever the state. -/
theorem eachStep_of_forall {P : List α → σ → α → σ → Prop} {as : List α}
    (all : ∀ a ∈ as, ∀ before s s', P before s a s') (s : σ) : EachStep step P s as := by
  rintro before a after s₁ s₂ rfl - -
  exact all a (List.mem_append_right _ List.mem_cons_self) before s₁ s₂

/-- What holds of every step holds of the last one. -/
theorem EachStep.last {P : List α → σ → α → σ → Prop} {s t : σ} (as : List α) {a : α}
    (each : EachStep step P s (as ++ [a])) (h : run step s (as ++ [a]) = some t) :
    ∃ s', run step s as = some s' ∧ step s' a = some t ∧ P as s' a t := by
  obtain ⟨s', hbefore, hstep⟩ := run_concat_eq_some.mp h
  exact ⟨s', hbefore, hstep, each as a [] s' t rfl hbefore hstep⟩

/-- **Invariance along a run.**  An invariant that survives the steps satisfying
`P`, and may speak of the inputs taken so far, holds at every point of a run all
of whose steps satisfy `P`. -/
theorem inv_of_eachStep (Inv : List α → σ → Prop) {P : List α → σ → α → σ → Prop}
    {s : σ} {as : List α} (start : Inv [] s)
    (preserved : ∀ {before s₁ a s₂}, a ∈ as → Inv before s₁ → step s₁ a = some s₂ →
      P before s₁ a s₂ → Inv (before ++ [a]) s₂)
    (each : EachStep step P s as) {before rest : List α} {s₁ : σ}
    (split : as = before ++ rest) (hrun : run step s before = some s₁) :
    Inv before s₁ := by
  -- On the prefix, from its end: the last step is the one `each` speaks about.
  induction before using List.reverseRecOn generalizing rest s₁ with
  | nil =>
      cases hrun
      exact start
  | append_singleton before a ih =>
      obtain ⟨s₀, hbefore, hstep⟩ := run_concat_eq_some.mp hrun
      have split' : as = before ++ a :: rest := by simpa using split
      exact preserved (by simp [split']) (ih split' hbefore) hstep
        (each before a rest s₀ s₁ split' hbefore hstep)

/-- **A run whose good steps are decided by a condition.**  Under the invariant a
step is `good` exactly when its state and input meet `ok`, and a step that meets
`ok` re-establishes it; nothing is asked of the invariant after a bad step. -/
theorem eachStep_iff_of_decided (Inv : List α → σ → Prop)
    {good : List α → σ → α → σ → Prop} {ok : List α → σ → α → Prop}
    {s : σ} {as : List α} (start : Inv [] s)
    (decided : ∀ {before s₁ a s₂}, a ∈ as → Inv before s₁ → step s₁ a = some s₂ →
      (good before s₁ a s₂ ↔ ok before s₁ a))
    (preserved : ∀ {before s₁ a s₂}, a ∈ as → Inv before s₁ →
      step s₁ a = some s₂ → ok before s₁ a → Inv (before ++ [a]) s₂) :
    EachStep step good s as ↔
      EachStep step (fun before s₁ a _ => ok before s₁ a) s as := by
  constructor
  · intro each before a after s₁ s₂ split hrun hstep
    have inv := inv_of_eachStep Inv start
      (fun mem inv hstep isGood => preserved mem inv hstep
        ((decided mem inv hstep).mp isGood)) each split hrun
    exact (decided (by simp [split]) inv hstep).mp
      (each before a after s₁ s₂ split hrun hstep)
  · intro each before a after s₁ s₂ split hrun hstep
    have inv := inv_of_eachStep Inv start preserved each split hrun
    exact (decided (by simp [split]) inv hstep).mpr
      (each before a after s₁ s₂ split hrun hstep)

end PartialStep
