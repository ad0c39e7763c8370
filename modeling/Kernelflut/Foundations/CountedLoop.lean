import Mathlib.Data.List.Basic
import Mathlib.Data.Int.Basic
import Mathlib.Tactic.Linarith
import Mathlib.Tactic.Ring

/-!
# The values a counted `for` loop takes

A loop `for (x = a, i = b; x < bound; x += step, i += stride)` whose body does
not assign `x` or `i` runs its body once for each element of a list that is
known beforehand: `counting bound step stride (a, b)`.  A nest of such loops is
a nested `flatMap`, and running the body is a fold over it.

The list is built by structural recursion on a fuel, of which `counting`
supplies `bound - a`.  `mem_counting` shows that this is enough: every turn with
the counter below the bound is taken, so the loop has ended because its
condition failed and not because the fuel ran out.
-/

namespace CountedLoop

universe u

variable {σ : Type u}

/-- The successive values of the loop variable of `for (v; cond v; v = next v)`,
at most `fuel` of them. -/
def values (cond : σ → Bool) (next : σ → σ) : ℕ → σ → List σ
  | 0, _ => []
  | fuel + 1, v => if cond v then v :: values cond next fuel (next v) else []

/-- The values of `(x, i)` in `for (x, i; x < bound; x += step, i += stride)`. -/
def counting (bound step stride : ℤ) (start : ℤ × ℤ) : List (ℤ × ℤ) :=
  values (fun v => v.1 < bound) (fun v => (v.1 + step, v.2 + stride))
    (bound - start.1).toNat start

section Counting

variable {bound step stride : ℤ}

/-- Membership with any sufficient fuel: the turns are `k = 0, 1, 2, …` as long
as the counter is below the bound. -/
theorem mem_values_counting (hstep : 0 < step) {fuel : ℕ} {x i : ℤ}
    (enough : (bound - x).toNat ≤ fuel) {v : ℤ × ℤ} :
    v ∈ values (fun v : ℤ × ℤ => v.1 < bound)
        (fun v => (v.1 + step, v.2 + stride)) fuel (x, i) ↔
      ∃ k : ℕ, v = (x + k * step, i + k * stride) ∧ x + k * step < bound := by
  induction fuel generalizing x i with
  | zero =>
      have ended : bound ≤ x := by omega
      simp only [values, List.not_mem_nil, false_iff, not_exists, not_and, not_lt]
      intro k _
      have : 0 ≤ (k : ℤ) * step := by positivity
      linarith
  | succ fuel ih =>
      by_cases inside : x < bound
      · have ih' := ih (x := x + step) (i := i + stride) (by omega)
        simp only [values, inside, decide_true, if_true, List.mem_cons, ih']
        constructor
        · -- Turn `k` of the rest of the loop is turn `k + 1` of the whole.
          rintro (rfl | ⟨k, rfl, hk⟩)
          · exact ⟨0, by simp, by simpa using inside⟩
          · refine ⟨k + 1, ?_, ?_⟩
            · push_cast; ring_nf
            · push_cast; linarith
        · rintro ⟨k, rfl, hk⟩
          cases k with
          | zero => left; simp
          | succ k =>
              right
              refine ⟨k, ?_, ?_⟩
              · push_cast; ring_nf
              · push_cast at hk; linarith
      · simp only [values, inside, decide_false, Bool.false_eq_true, if_false,
          List.not_mem_nil, false_iff, not_exists, not_and, not_lt]
        intro k _
        have : 0 ≤ (k : ℤ) * step := by positivity
        linarith

theorem mem_counting (hstep : 0 < step) {start v : ℤ × ℤ} :
    v ∈ counting bound step stride start ↔
      ∃ k : ℕ, v = (start.1 + k * step, start.2 + k * stride) ∧
        start.1 + k * step < bound :=
  mem_values_counting hstep le_rfl

/-- More fuel than enough changes nothing. -/
theorem values_eq_of_enough (hstep : 0 < step) {fuel fuel' : ℕ} {x i : ℤ}
    (enough : (bound - x).toNat ≤ fuel) (enough' : (bound - x).toNat ≤ fuel') :
    values (fun v : ℤ × ℤ => decide (v.1 < bound))
        (fun v => (v.1 + step, v.2 + stride)) fuel (x, i) =
      values (fun v : ℤ × ℤ => decide (v.1 < bound))
        (fun v => (v.1 + step, v.2 + stride)) fuel' (x, i) := by
  induction fuel generalizing fuel' x i with
  | zero =>
      have ended : ¬ x < bound := by omega
      cases fuel' <;> simp [values, ended]
  | succ fuel ih =>
      by_cases inside : x < bound
      · cases fuel' with
        | zero => omega
        | succ fuel' =>
            have rest : (bound - (x + step)).toNat ≤ fuel' := by omega
            simp only [values, inside, decide_true, if_true]
            rw [ih (by omega) rest]
      · cases fuel' <;> simp [values, inside]

theorem counting_of_le {start : ℤ × ℤ} (ended : bound ≤ start.1) :
    counting bound step stride start = [] := by
  rw [counting, Int.toNat_of_nonpos (by omega)]
  rfl

/-- The first turn, and the rest of the loop. -/
theorem counting_of_lt (hstep : 0 < step) {start : ℤ × ℤ} (inside : start.1 < bound) :
    counting bound step stride start =
      start :: counting bound step stride (start.1 + step, start.2 + stride) := by
  obtain ⟨fuel, hfuel⟩ := Nat.exists_eq_succ_of_ne_zero
    (show (bound - start.1).toNat ≠ 0 by omega)
  rw [counting, hfuel, values, if_pos (decide_eq_true inside), counting]
  exact congrArg _ (values_eq_of_enough hstep (by omega) le_rfl)

/-- The counter grows strictly from turn to turn. -/
theorem counting_pairwise (hstep : 0 < step) (start : ℤ × ℤ) :
    (counting bound step stride start).Pairwise fun v w => v.1 < w.1 := by
  have sorted : ∀ (fuel : ℕ) (v : ℤ × ℤ),
      (values (fun v : ℤ × ℤ => decide (v.1 < bound))
        (fun v => (v.1 + step, v.2 + stride)) fuel v).Pairwise
          (fun v w => v.1 < w.1) ∧
      ∀ w ∈ values (fun v : ℤ × ℤ => decide (v.1 < bound))
        (fun v => (v.1 + step, v.2 + stride)) fuel v, v.1 ≤ w.1 := by
    intro fuel
    induction fuel with
    | zero => intro v; simp [values]
    | succ fuel ih =>
        intro v
        by_cases inside : v.1 < bound
        · obtain ⟨rest, above⟩ := ih (v.1 + step, v.2 + stride)
          have later : ∀ w ∈ values (fun v : ℤ × ℤ => decide (v.1 < bound))
              (fun v => (v.1 + step, v.2 + stride)) fuel
              (v.1 + step, v.2 + stride), v.1 < w.1 := by
            intro w hw
            have := above w hw
            simp only at this
            linarith
          simp only [values, inside, decide_true, if_true, List.pairwise_cons,
            List.mem_cons, forall_eq_or_imp, le_refl, true_and]
          exact ⟨⟨later, rest⟩, fun w hw => (later w hw).le⟩
        · simp [values, inside]
  exact (sorted _ start).1

end Counting

end CountedLoop
