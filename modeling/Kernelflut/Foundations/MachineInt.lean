import Kernelflut.Foundations.CountedLoop

/-!
# Fixed-width integers

Programs compute with integers of `w` bits.  An `Arith` says what becomes of the
exact result of an operation: it is reduced modulo `2 ^ w` (`wrapping`), or is
undefined when it is out of range (`checked`).  What they have in common is being
`Faithful`: a result in range is that result.

`countingIn_eq` transfers a counted loop.  If the values after every turn are in
range, the loop takes its exact values in either arithmetic; in `checked` this is to
say that nothing overflows.
-/

namespace MachineInt

open CountedLoop

universe u

/-- The integers of `w` bits, two's complement. -/
def InRange (w : ℕ) (z : ℤ) : Prop := -2 ^ (w - 1) ≤ z ∧ z < 2 ^ (w - 1)

instance (w : ℕ) (z : ℤ) : Decidable (InRange w z) :=
  inferInstanceAs (Decidable (-2 ^ (w - 1) ≤ z ∧ z < 2 ^ (w - 1)))

/-- What an operation gives, whose exact result is the argument. -/
abbrev Arith := ℤ → Option ℤ

def wrapping (w : ℕ) : Arith := fun z => some (z.bmod (2 ^ w))

def checked (w : ℕ) : Arith := fun z => if InRange w z then some z else none

/-- Results in range are exact. -/
def Faithful (w : ℕ) (arith : Arith) : Prop := ∀ z, InRange w z → arith z = some z

theorem faithful_checked (w : ℕ) : Faithful w (checked w) := fun _ inRange => if_pos inRange

theorem faithful_wrapping {w : ℕ} (pos : 0 < w) : Faithful w (wrapping w) := by
  intro z inRange
  obtain ⟨k, rfl⟩ := Nat.exists_eq_succ_of_ne_zero pos.ne'
  obtain ⟨above, below⟩ := inRange
  rw [Nat.succ_sub_one] at above below
  rw [wrapping, Option.some.injEq]
  apply Int.bmod_eq_of_le
  · push_cast
    rw [pow_succ]
    omega
  · push_cast
    rw [pow_succ]
    omega

/-! ## Loops -/

section Loops

variable {σ : Type u}

/-- The successive values of the loop variable, the last of them failing the
condition; `none` if the fuel does not suffice or a step is undefined. -/
def valuesIn (cond : σ → Bool) (next : σ → Option σ) : ℕ → σ → Option (List σ)
  | 0, v => if cond v then none else some []
  | fuel + 1, v =>
      if cond v then
        (next v).bind fun v' => (valuesIn cond next fuel v').map (v :: ·)
      else some []

/-- The values of `(x, i)` in `for (x, i; x < bound; x += step, i += stride)`. -/
def countingIn (arith : Arith) (bound step stride : ℤ) (fuel : ℕ) (start : ℤ × ℤ) :
    Option (List (ℤ × ℤ)) :=
  valuesIn (fun v => v.1 < bound)
    (fun v => (arith (v.1 + step)).bind fun x =>
      (arith (v.2 + stride)).map fun i => (x, i)) fuel start

/-- **A counted loop without overflow** takes the values it takes in exact
arithmetic, and ends. -/
theorem countingIn_eq {w : ℕ} {arith : Arith} (faithful : Faithful w arith)
    {bound step stride : ℤ} (hstep : 0 < step) {fuel : ℕ} {start : ℤ × ℤ}
    (enough : (bound - start.1).toNat ≤ fuel)
    (fits : ∀ v ∈ counting bound step stride start,
      InRange w (v.1 + step) ∧ InRange w (v.2 + stride)) :
    countingIn arith bound step stride fuel start =
      some (counting bound step stride start) := by
  induction fuel generalizing start with
  | zero =>
      have ended : bound ≤ start.1 := by omega
      rw [counting_of_le ended, countingIn, valuesIn, if_neg (by simpa using ended)]
  | succ fuel ih =>
      rcases lt_or_ge start.1 bound with inside | ended
      · rw [counting_of_lt hstep inside] at fits ⊢
        obtain ⟨counter, second⟩ := fits start List.mem_cons_self
        have enough' : (bound - (start.1 + step)).toNat ≤ fuel := by omega
        have rest := ih enough' fun v hv => fits v (List.mem_cons_of_mem _ hv)
        rw [countingIn] at rest ⊢
        rw [valuesIn, if_pos (by simpa using inside), faithful _ counter, faithful _ second]
        simp only [Option.bind_some, Option.map_some, rest]
      · rw [counting_of_le ended, countingIn, valuesIn, if_neg (by simpa using ended)]

end Loops

/-- A body that is defined on every turn. -/
theorem mapM_eq_some {α β : Type*} {f : α → Option β} {g : α → β} {xs : List α}
    (h : ∀ x ∈ xs, f x = some (g x)) : xs.mapM f = some (xs.map g) := by
  induction xs with
  | nil => rfl
  | cons x xs ih =>
      rw [List.mapM_cons, h x List.mem_cons_self,
        ih fun y hy => h y (List.mem_cons_of_mem _ hy)]
      rfl

end MachineInt
