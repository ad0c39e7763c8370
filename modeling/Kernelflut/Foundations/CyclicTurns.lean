import Mathlib.Data.Int.CardIntervalMod
import Mathlib.Data.Int.ModEq
import Mathlib.Data.List.Count
import Mathlib.RingTheory.Coprime.Basic
import Mathlib.Tactic.Linarith
import Mathlib.Tactic.Ring

/-!
# Turns of a cyclic counter

A counter modulo `m` advances by `stride` in every call, and a position is *due*
in the calls `t` in which `base + t * stride` is a multiple of `m`.

* `existsUnique_due` — when `m` and the stride are coprime, a position is due
  exactly once in any `m` consecutive calls;
* `due_iff_of_dvd` — when `m` divides the stride, it is due in every call or in
  none.

Both come down to a linear congruence, `existsUnique_mul_modEq`.
`count_flatMap_eq_one` is what the first of these is used for: if each call
produces a list without duplicates and exactly one of them has `a` in it, `a`
is produced exactly once.

With stride 1 the counter is a round robin; `count_turns` says how evenly it
serves its positions.
-/

namespace CyclicTurns

universe u v

/-- **A linear congruence with an invertible coefficient** has one solution
among the residues. -/
theorem existsUnique_mul_modEq {m stride : ℤ} (pos : 0 < m)
    (coprime : IsCoprime stride m) (target : ℤ) :
    ∃! t : ℤ, (0 ≤ t ∧ t < m) ∧ t * stride ≡ target [ZMOD m] := by
  obtain ⟨inv, q, bezout⟩ := coprime
  have inverse : inv * stride ≡ 1 [ZMOD m] := by
    rw [← bezout, Int.modEq_add_mul_modulus_iff]
  refine ⟨target * inv % m,
    ⟨⟨Int.emod_nonneg _ pos.ne', Int.emod_lt_of_pos _ pos⟩, ?_⟩, ?_⟩
  · calc target * inv % m * stride ≡ target * inv * stride [ZMOD m] :=
          (Int.mod_modEq _ _).mul_right _
      _ = target * (inv * stride) := by ring
      _ ≡ target * 1 [ZMOD m] := inverse.mul_left _
      _ = target := mul_one _
  · rintro t ⟨⟨nonneg, below⟩, solves⟩
    have solved : target * inv ≡ t [ZMOD m] := by
      calc target * inv ≡ t * stride * inv [ZMOD m] := (solves.mul_right _).symm
        _ = t * (inv * stride) := by ring
        _ ≡ t * 1 [ZMOD m] := inverse.mul_left _
        _ = t := mul_one _
    rw [solved, Int.emod_eq_of_lt nonneg below]

/-! ## Being due -/

/-- The position with this base is due in call `t`. -/
def Due (m stride base t : ℕ) : Prop := (base + t * stride) % m = 0

instance (m stride base t : ℕ) : Decidable (Due m stride base t) :=
  inferInstanceAs (Decidable (_ = 0))

variable {m stride base : ℕ}

/-- Counting the calls from a later one moves the base. -/
theorem due_add (s t : ℕ) :
    Due m stride base (s + t) ↔ Due m stride (base + s * stride) t := by
  unfold Due
  rw [Nat.add_mul, ← Nat.add_assoc]

/-- **A counter that stands still**: every call is like the first. -/
theorem due_iff_of_dvd (divides : m ∣ stride) (s t : ℕ) :
    Due m stride base s ↔ Due m stride base t := by
  have still : ∀ t, (base + t * stride) % m = base % m := by
    intro t
    obtain ⟨q, rfl⟩ := divides
    rw [Nat.mul_left_comm, Nat.add_mul_mod_self_left]
  unfold Due
  rw [still, still]

/-- **A counter that comes around**: due once in `m` calls. -/
theorem existsUnique_due (pos : 0 < m) (coprime : IsCoprime (stride : ℤ) m)
    (base : ℕ) : ∃! t, t < m ∧ Due m stride base t := by
  have due_iff : ∀ t : ℕ, Due m stride base t ↔ (t : ℤ) * stride ≡ -base [ZMOD m] := by
    intro t
    rw [Due, ← Nat.dvd_iff_mod_eq_zero, ← Int.natCast_dvd_natCast, Int.modEq_comm,
      Int.modEq_iff_dvd]
    push_cast
    rw [sub_neg_eq_add, add_comm]
  obtain ⟨t, ⟨⟨nonneg, lt⟩, solves⟩, unique⟩ :=
    existsUnique_mul_modEq (Int.natCast_pos.mpr pos) coprime (-base)
  obtain ⟨t, rfl⟩ := Int.eq_ofNat_of_zero_le nonneg
  refine ⟨t, ⟨Int.ofNat_lt.mp lt, (due_iff t).mpr solves⟩, ?_⟩
  rintro s ⟨below, due⟩
  exact Int.ofNat_inj.mp
    (unique s ⟨⟨Int.natCast_nonneg s, Int.ofNat_lt.mpr below⟩, (due_iff s).mp due⟩)

/-! ## Counting -/

/-- **A round robin** over `n` positions: of `m` consecutive turns each position
has `m / n`, or one more. -/
theorem count_turns {n i : ℕ} (hi : i < n) (start m : ℕ) :
    m / n ≤ ((List.range m).map fun k => (start + k) % n).count i ∧
      ((List.range m).map fun k => (start + k) % n).count i ≤ m / n + 1 := by
  have pos : 0 < n := Nat.zero_lt_of_lt hi
  -- A turn of `i`, perhaps not its first one.
  obtain ⟨turn, hturn⟩ : ∃ turn, (start + turn) % n = i := by
    refine ⟨i + (n - start % n), ?_⟩
    have below := Nat.mod_lt start pos
    have whole : start + (i + (n - start % n)) = i + n * (start / n + 1) := by
      have split := Nat.mod_add_div start n
      rw [Nat.mul_add]
      omega
    rw [whole, Nat.add_mul_mod_self_left, Nat.mod_eq_of_lt hi]
  have turn_iff : ∀ k, (start + k) % n = i ↔ k ≡ turn [MOD n] := by
    intro k
    rw [← hturn]
    exact Nat.ModEq.add_iff_left rfl
  have counted : ((List.range m).map fun k => (start + k) % n).count i =
      Nat.count (· ≡ turn [MOD n]) m := by
    induction m with
    | zero => rfl
    | succ m ih =>
        rw [List.range_succ, List.map_append, List.count_append, ih, Nat.count_succ,
          List.map_singleton, List.count_singleton]
        simp only [beq_iff_eq, turn_iff]
  rw [counted, Nat.count_modEq_card m pos turn]
  split <;> omega

/-- If `a` occurs in exactly one of the lists, and there without duplicates, it
occurs once in all of them together. -/
theorem count_flatMap_eq_one {α : Type u} {β : Type v} [BEq β] [LawfulBEq β]
    {f : α → List β} {xs : List α} {b : β} (nodup : ∀ x ∈ xs, (f x).Nodup)
    (unique : ∃! t : ℕ, ∃ x, xs[t]? = some x ∧ b ∈ f x) : (xs.flatMap f).count b = 1 := by
  obtain ⟨t, ⟨x, hx, mem⟩, only⟩ := unique
  obtain ⟨bound, rfl⟩ := List.getElem?_eq_some_iff.mp hx
  have elsewhere : ∀ ys : List α, (∀ y ∈ ys, b ∉ f y) → (ys.flatMap f).count b = 0 := by
    intro ys absent
    refine List.count_eq_zero.mpr fun h => ?_
    obtain ⟨y, hy, hb⟩ := List.mem_flatMap.mp h
    exact absent y hy hb
  have before : ∀ y ∈ xs.take t, b ∉ f y := by
    intro y hy hb
    obtain ⟨s, hs⟩ := List.getElem?_of_mem hy
    obtain ⟨below, -⟩ := List.getElem?_eq_some_iff.mp hs
    rw [List.length_take] at below
    rw [List.getElem?_take_of_lt (by omega)] at hs
    have := only s ⟨y, hs, hb⟩
    omega
  have after : ∀ y ∈ xs.drop (t + 1), b ∉ f y := by
    intro y hy hb
    obtain ⟨s, hs⟩ := List.getElem?_of_mem hy
    rw [List.getElem?_drop] at hs
    have := only _ ⟨y, hs, hb⟩
    omega
  have here : (f xs[t]).count b = 1 :=
    (nodup _ (List.getElem_mem bound)).count.trans (if_pos mem)
  calc (xs.flatMap f).count b
      = ((xs.take t ++ xs[t] :: xs.drop (t + 1)).flatMap f).count b := by
        rw [List.getElem_cons_drop, List.take_append_drop]
    _ = 0 + (1 + 0) := by
        rw [List.flatMap_append, List.flatMap_cons, List.count_append, List.count_append,
          elsewhere _ before, elsewhere _ after, here]

end CyclicTurns
