import Kernelflut.Pixelflut.Client

/-!
# Larger send buffers

With `-s` the send buffers of the sockets are to grow: "the value is doubled
`factor` times".  `pf_increase_sndbuf` doubles it `factor - 1` times by a shift
of an `int`, since Linux doubles what it is given once more, and prints what the
result will be, which takes a shift by `factor`.

Nothing bounds the number of `-s` flags, so the shifts can leave the range of
`int`.  `sndbuf_doubled_iff` says when all goes well: when even the larger of the
two shifts fits, on every connection.

What a shift out of range gives is not defined; `shl` stands for it, and is only
known to be exact within the range.
-/

namespace Kernelflut.Pixelflut

universe u

variable {B : Type u}

/-- The send buffer of a connection, and what `getsockopt` and `setsockopt` return
for it. -/
structure Sndbuf where
  value : ℤ
  value_pos : 0 < value
  getErr : ℤ
  setErr : ℤ

/-- One of the two calls fails. -/
def Sndbuf.Fails (s : Sndbuf) : Prop := s.getErr ≠ 0 ∨ s.setErr ≠ 0

/-- What a call of `pf_increase_sndbuf` did: the shifts it evaluated, with their
operands, the values handed to `setsockopt`, and the return code. -/
structure Increased where
  shifts : List (ℤ × ℤ)
  handed : List (ℕ × ℤ)
  ret : ℤ
  deriving DecidableEq

/-- The loop of `pf_increase_sndbuf`, from connection `i` on, with `todo`
connections to go. -/
def increaseSlots (shl : ℤ → ℤ → ℤ) (factor : ℤ) (slots : ℕ → Sndbuf) :
    (todo i : ℕ) → Increased
  | 0, _ => ⟨[], [], 0⟩
  | todo + 1, i =>
      let s := slots i
      if s.getErr ≠ 0 then ⟨[], [], s.getErr⟩
      else
        -- The first one is only printed.
        let shifts := [(s.value, factor), (s.value, factor - 1)]
        let handed := [(i, shl s.value (factor - 1))]
        if s.setErr ≠ 0 then ⟨shifts, handed, s.setErr⟩
        else
          let rest := increaseSlots shl factor slots todo (i + 1)
          ⟨shifts ++ rest.shifts, handed ++ rest.handed, rest.ret⟩

/-- `pf_increase_sndbuf(factor)` -/
def pfIncreaseSndbuf (shl : ℤ → ℤ → ℤ) (c : Client B) (slots : ℕ → Sndbuf) (factor : ℤ) :
    Increased :=
  increaseSlots shl factor slots c.numConns 0

/-- `value << amount` is defined, in 32 bits. -/
def ShiftInRange (value amount : ℤ) : Prop :=
  0 ≤ value ∧ (0 ≤ amount ∧ amount < 32) ∧ value * 2 ^ amount.toNat ≤ 2147483647

/-! ## The loop -/

section Loop

variable {shl : ℤ → ℤ → ℤ} {factor : ℤ} {slots : ℕ → Sndbuf}

/-- Without a failure every connection is served. -/
theorem increaseSlots_of_ok {todo i : ℕ} (ok : ∀ k < todo, ¬ (slots (i + k)).Fails) :
    increaseSlots shl factor slots todo i =
      ⟨(List.range' i todo).flatMap fun k =>
          [((slots k).value, factor), ((slots k).value, factor - 1)],
        (List.range' i todo).map fun k => (k, shl (slots k).value (factor - 1)), 0⟩ := by
  induction todo generalizing i with
  | zero => rfl
  | succ todo ih =>
      have first : ¬ (slots i).Fails := ok 0 (Nat.succ_pos _)
      simp only [Sndbuf.Fails, not_or, not_not] at first
      have rest := ih (i := i + 1) fun k hk => by
        rw [Nat.add_right_comm]
        exact ok (k + 1) (Nat.succ_lt_succ hk)
      simp only [increaseSlots, first.1, first.2, ne_eq, not_true_eq_false, if_false, rest]
      rfl

/-- A failure is returned. -/
theorem increaseSlots_ret_ne_zero {todo i k : ℕ} (hk : k < todo)
    (fails : (slots (i + k)).Fails) : (increaseSlots shl factor slots todo i).ret ≠ 0 := by
  induction todo generalizing i k with
  | zero => cases hk
  | succ todo ih =>
      rw [increaseSlots]
      simp only
      split
      · next getFails => exact getFails
      · next getOk =>
          split
          · next setFails => exact setFails
          · next setOk =>
              cases k with
              | zero => exact absurd fails (not_or.mpr ⟨getOk, setOk⟩)
              | succ k =>
                  refine ih (k := k) (Nat.lt_of_succ_lt_succ hk) ?_
                  rw [Nat.add_right_comm]
                  exact fails

end Loop

/-! ## The shifts -/

theorem shiftInRange_iff {value amount : ℤ} (pos : 0 < value) (nonneg : 0 ≤ amount) :
    ShiftInRange value amount ↔ value * 2 ^ amount.toNat ≤ 2147483647 := by
  refine ⟨fun inRange => inRange.2.2, fun fits => ⟨pos.le, ⟨nonneg, ?_⟩, fits⟩⟩
  by_contra large
  have power : (2 : ℤ) ^ 32 ≤ 2 ^ amount.toNat :=
    pow_le_pow_right₀ (by norm_num) (by omega)
  nlinarith

/-- If the shift that is printed fits, so does the other one. -/
theorem shift_pred_fits {value factor : ℤ} (pos : 0 < value)
    (fits : value * 2 ^ factor.toNat ≤ 2147483647) :
    value * 2 ^ (factor - 1).toNat ≤ 2147483647 := by
  refine le_trans ?_ fits
  exact mul_le_mul_of_nonneg_left
    (pow_le_pow_right₀ (by norm_num) (Int.toNat_le_toNat (by omega))) pos.le

/-- **When the send buffers are doubled as often as asked**: if a call fails, nothing
is promised; otherwise exactly when each connection's value, doubled that often, is
an `int`. -/
theorem sndbuf_doubled_iff (shl : ℤ → ℤ → ℤ)
    (exact_in_range : ∀ value amount, ShiftInRange value amount →
      shl value amount = value * 2 ^ amount.toNat)
    (c : Client B) (slots : ℕ → Sndbuf) (factor : ℤ) (hfactor : 1 ≤ factor) :
    let r := pfIncreaseSndbuf shl c slots factor
    (r.ret = 0 →
        r.handed = (List.range c.numConns).map (fun i =>
          (i, (slots i).value * 2 ^ (factor - 1).toNat)) ∧
        ∀ shift ∈ r.shifts, ShiftInRange shift.1 shift.2) ↔
      (∃ i < c.numConns, (slots i).Fails) ∨
        ∀ i < c.numConns, (slots i).value * 2 ^ factor.toNat ≤ 2147483647 := by
  intro r
  by_cases failure : ∃ i < c.numConns, (slots i).Fails
  · obtain ⟨i, hi, fails⟩ := failure
    refine iff_of_true (fun success => ?_) (Or.inl ⟨i, hi, fails⟩)
    exact absurd success (increaseSlots_ret_ne_zero hi (by rwa [Nat.zero_add]))
  · have served : r = _ := increaseSlots_of_ok (i := 0) fun k hk fails =>
      failure ⟨k, hk, by rwa [Nat.zero_add] at fails⟩
    rw [← List.range_eq_range'] at served
    rw [or_iff_right failure, served]
    simp only [true_implies, List.mem_flatMap, List.mem_range]
    constructor
    · rintro ⟨-, inRange⟩ i hi
      exact (inRange _ ⟨i, hi, List.mem_cons_self⟩).2.2
    · intro fits
      have printed : ∀ i < c.numConns, ShiftInRange (slots i).value factor := fun i hi =>
        (shiftInRange_iff (slots i).value_pos (by omega)).mpr (fits i hi)
      have stored : ∀ i < c.numConns, ShiftInRange (slots i).value (factor - 1) := fun i hi =>
        (shiftInRange_iff (slots i).value_pos (by omega)).mpr
          (shift_pred_fits (slots i).value_pos (fits i hi))
      constructor
      · refine List.map_congr_left fun i hi => ?_
        rw [exact_in_range _ _ (stored i (List.mem_range.mp hi))]
      · rintro _ ⟨i, hi, hshift⟩
        rcases List.mem_pair.mp hshift with rfl | rfl
        · exact printed i hi
        · exact stored i hi

/-- What common machines do: shift by the low five bits of the amount, and keep the
low 32 bits. -/
def shlWrap (value amount : ℤ) : ℤ := (value * 2 ^ (amount % 32).toNat).bmod (2 ^ 32)

theorem shlWrap_of_shiftInRange {value amount : ℤ} (inRange : ShiftInRange value amount) :
    shlWrap value amount = value * 2 ^ amount.toNat := by
  obtain ⟨nonneg, amount_range, fits⟩ := inRange
  have product_nonneg : 0 ≤ value * 2 ^ amount.toNat := by positivity
  rw [shlWrap, Int.emod_eq_of_lt amount_range.1 amount_range.2]
  apply Int.bmod_eq_of_le
  · norm_num
    omega
  · norm_num
    omega

/-- A send buffer for which both calls succeed. -/
def workingSndbuf (value : ℤ) (pos : 0 < value) : Sndbuf := ⟨value, pos, 0, 0⟩

/-- Two connections, `-s -s`: the value is doubled here, and once more by Linux. -/
theorem sndbuf_doubled_twice :
    (pfIncreaseSndbuf shlWrap (Client.connected [3, 4] : Client Unit)
      (fun _ => workingSndbuf 212992 (by decide)) 2).handed = [(0, 425984), (1, 425984)] := by
  have doubled := (sndbuf_doubled_iff shlWrap (fun _ _ => shlWrap_of_shiftInRange)
    (Client.connected [3, 4] : Client Unit) (fun _ => workingSndbuf 212992 (by decide)) 2
    (by decide)).mpr (Or.inr fun _ _ => by decide)
  exact (doubled rfl).1

/-- With `-s` fifteen times the shift by 14 leaves the range, and `setsockopt` is handed
a negative size. -/
theorem sndbuf_overflows :
    (pfIncreaseSndbuf shlWrap (Client.connected [3] : Client Unit)
        (fun _ => workingSndbuf 212992 (by decide)) 15).handed = [(0, -805306368)] ∧
      ¬ ∀ (c : Client Unit) (slots : ℕ → Sndbuf) (factor : ℤ), 1 ≤ factor →
        (pfIncreaseSndbuf shlWrap c slots factor).ret = 0 →
          (pfIncreaseSndbuf shlWrap c slots factor).handed =
              (List.range c.numConns).map (fun i =>
                (i, (slots i).value * 2 ^ (factor - 1).toNat)) ∧
            ∀ shift ∈ (pfIncreaseSndbuf shlWrap c slots factor).shifts,
              ShiftInRange shift.1 shift.2 := by
  have handed : (pfIncreaseSndbuf shlWrap (Client.connected [3] : Client Unit)
      (fun _ => workingSndbuf 212992 (by decide)) 15).handed = [(0, -805306368)] := by
    decide
  refine ⟨handed, fun doubled => ?_⟩
  obtain ⟨asked, -⟩ := doubled (Client.connected [3])
    (fun _ => workingSndbuf 212992 (by decide)) 15 (by decide) rfl
  rw [handed] at asked
  exact absurd asked (by decide)

end Kernelflut.Pixelflut
