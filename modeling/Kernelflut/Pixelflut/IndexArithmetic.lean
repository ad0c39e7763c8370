import Kernelflut.Foundations.MachineInt
import Kernelflut.Pixelflut.Contract

/-!
# The index arithmetic of `pf_set_buf`

The visiting order was defined with exact integers.  Here the three loops are
written again with every `int` operation explicit, over an arithmetic that says
what becomes of its result: `visitsIn (checked 32)` is undefined as soon as one
operation overflows, `visitsIn (wrapping 32)` goes on with the low 32 bits.

The counters run past the last pixel before the loops end, by up to a whole row
and up to a stride and an offset.  `index_arithmetic` says that a frame of at most
`2 ^ 31 - 5` pixels leaves room for that.
-/

namespace Kernelflut.Pixelflut

open CountedLoop MachineInt

universe u

/-- The loop over `x` in row `y`, with the lines before it. -/
def rowVisitsIn (arith : Arith) (fuel : ℕ) (rect : EvdiRect) (round y rowStartI : ℤ) :
    Option (List Visit) := do
  let sum ← arith (round + y)
  let rowRound ← arith (sum.tmod rounds)
  let product ← arith (rowRound * stagger)
  let rowBias ← arith (product.tmod rounds)
  let xi ← arith (rect.x1 + rowBias)
  let i ← arith (rowStartI + xi)
  let turns ← countingIn arith rect.x2 rounds rounds fuel (xi, i)
  return turns.map fun (x, i) => ⟨x, y, i⟩

/-- The loop over `y`. -/
def roundVisitsIn (arith : Arith) (fuel : ℕ) (width : ℤ) (rect : EvdiRect) (round : ℤ) :
    Option (List Visit) := do
  let rowStartI ← arith (rect.y1 * width)
  let rows ← countingIn arith rect.y2 1 width fuel (rect.y1, rowStartI)
  let parts ← rows.mapM fun (y, rowStartI) => rowVisitsIn arith fuel rect round y rowStartI
  return parts.flatten

/-- The three loops. -/
def visitsIn (arith : Arith) (fuel : ℕ) (width : ℤ) (rect : EvdiRect) :
    Option (List Visit) := do
  let all ← countingIn arith rounds 1 0 fuel (0, 0)
  let parts ← all.mapM fun (round, _) => roundVisitsIn arith fuel width rect round
  return parts.flatten

/-! ## Room for the counters -/

theorem inRange_of_nonneg {z : ℤ} (nonneg : 0 ≤ z) (le : z ≤ 2147483647) : InRange 32 z := by
  constructor
  · norm_num
    omega
  · norm_num
    omega

/-- A row and its successor lie within the frame. -/
theorem row_bounds {width height y : ℤ} (hwidth : 1 ≤ width) (nonneg : 0 ≤ y)
    (below : y < height) :
    0 ≤ y * width ∧ y * width + width ≤ width * height ∧ width ≤ width * height ∧
      height ≤ width * height := by
  have tall : 1 ≤ height := by omega
  refine ⟨by positivity, ?_, ?_, ?_⟩
  · nlinarith
  · nlinarith
  · nlinarith

theorem rowBias_bounds {round y : ℤ} (hround : 0 ≤ round) (hy : 0 ≤ y) :
    0 ≤ rowBias rounds stagger round y ∧ rowBias rounds stagger round y ≤ 4 := by
  rw [rowBias_eq stagger_pos hround hy rounds_pos]
  have lower := Int.emod_nonneg ((round + y) * stagger) rounds_pos.ne'
  have upper := Int.emod_lt_of_pos ((round + y) * stagger) rounds_pos
  exact ⟨lower, Int.le_of_lt_add_one upper⟩

/-! ## The loops -/

section Loops

variable {arith : Arith} {fuel : ℕ} {width height : ℤ} {rect : EvdiRect} {round y : ℤ}

/-- **A row**: the counters go up to a stride beyond it. -/
theorem rowVisitsIn_eq (faithful : Faithful 32 arith) (hwidth : 1 ≤ width)
    (fits : width * height + 4 ≤ 2 ^ 31 - 1) (inside : rect.Inside width height)
    (hround : 0 ≤ round ∧ round < rounds) (hy : rect.y1 ≤ y ∧ y < rect.y2)
    (enough : (rect.x2 - rect.x1).toNat ≤ fuel) :
    rowVisitsIn arith fuel rect round y (y * width) =
      some ((counting rect.x2 rounds rounds
        (rect.x1 + rowBias rounds stagger round y,
          y * width + (rect.x1 + rowBias rounds stagger round y))).map
            fun (x, i) => ⟨x, y, i⟩) := by
  have y_nonneg : 0 ≤ y := inside.y1_nonneg.trans hy.1
  have y_below : y < height := hy.2.trans_le inside.y2_le_height
  obtain ⟨start_nonneg, row, wide, tall⟩ := row_bounds hwidth y_nonneg y_below
  obtain ⟨bias_nonneg, bias_le⟩ := rowBias_bounds hround.1 y_nonneg
  have x1_nonneg := inside.x1_nonneg
  have x1_le : rect.x1 ≤ width := inside.x1_le_x2.trans inside.x2_le_width
  have x2_le := inside.x2_le_width
  have few : round < 5 := hround.2
  set bias := rowBias rounds stagger round y with hbias
  have sum : arith (round + y) = some (round + y) :=
    faithful _ (inRange_of_nonneg (by omega) (by omega))
  have rowRound_eq : (round + y).tmod rounds = (round + y) % 5 :=
    Int.tmod_eq_emod_of_nonneg (by omega)
  have rowRound : arith ((round + y).tmod rounds) = some ((round + y).tmod rounds) :=
    faithful _ (inRange_of_nonneg (by omega) (by omega))
  have product : arith ((round + y).tmod rounds * stagger) =
      some ((round + y).tmod rounds * stagger) := by
    rw [rowRound_eq, stagger]
    exact faithful _ (inRange_of_nonneg (by omega) (by omega))
  have rowBias : arith bias = some bias :=
    faithful _ (inRange_of_nonneg bias_nonneg (by omega))
  have xi : arith (rect.x1 + bias) = some (rect.x1 + bias) :=
    faithful _ (inRange_of_nonneg (by omega) (by omega))
  have i : arith (y * width + (rect.x1 + bias)) = some (y * width + (rect.x1 + bias)) :=
    faithful _ (inRange_of_nonneg (by omega) (by omega))
  have turns : countingIn arith rect.x2 rounds rounds fuel
      (rect.x1 + bias, y * width + (rect.x1 + bias)) = some _ :=
    countingIn_eq faithful rounds_pos (by simp only; omega) ?_
  · simp only [rowVisitsIn, sum, rowRound, product, Option.bind_eq_bind, Option.bind_some]
    rw [show ((round + y).tmod rounds * stagger).tmod rounds = bias from rfl, rowBias]
    simp only [xi, i, turns, Option.bind_some]
    rfl
  · -- Before its last step a counter is still inside the row.
    intro v hv
    obtain ⟨k, rfl, column⟩ := (mem_counting rounds_pos).mp hv
    simp only [rounds] at column ⊢
    exact ⟨inRange_of_nonneg (by omega) (by omega), inRange_of_nonneg (by omega) (by omega)⟩

/-- **A round**: the row start goes up to the row after the last. -/
theorem roundVisitsIn_eq (faithful : Faithful 32 arith) (hwidth : 1 ≤ width)
    (fits : width * height + 4 ≤ 2 ^ 31 - 1) (inside : rect.Inside width height)
    (hround : 0 ≤ round ∧ round < rounds) (enoughRows : (rect.y2 - rect.y1).toNat ≤ fuel)
    (enough : (rect.x2 - rect.x1).toNat ≤ fuel) :
    roundVisitsIn arith fuel width rect round =
      some (roundVisits rounds stagger width rect round) := by
  have y1_nonneg := inside.y1_nonneg
  have y1_le : rect.y1 ≤ height := inside.y1_le_y2.trans inside.y2_le_height
  have y2_le := inside.y2_le_height
  have first : rect.y1 * width ≤ width * height := by
    rw [mul_comm width]
    exact mul_le_mul_of_nonneg_right y1_le (by omega)
  have rowStart : arith (rect.y1 * width) = some (rect.y1 * width) :=
    faithful _ (inRange_of_nonneg (by positivity) (by omega))
  have row_mem : ∀ v ∈ counting rect.y2 1 width (rect.y1, rect.y1 * width),
      (rect.y1 ≤ v.1 ∧ v.1 < rect.y2) ∧ v.2 = v.1 * width := by
    intro v hv
    obtain ⟨k, rfl, row⟩ := (mem_counting one_pos).mp hv
    simp only at row ⊢
    exact ⟨⟨by omega, row⟩, by ring⟩
  have rows : countingIn arith rect.y2 1 width fuel (rect.y1, rect.y1 * width) = some _ :=
    countingIn_eq faithful one_pos enoughRows ?_
  · have parts : ∀ v ∈ counting rect.y2 1 width (rect.y1, rect.y1 * width),
        rowVisitsIn arith fuel rect round v.1 v.2 =
          some ((counting rect.x2 rounds rounds
            (rect.x1 + rowBias rounds stagger round v.1,
              v.2 + (rect.x1 + rowBias rounds stagger round v.1))).map
                fun (x, i) => ⟨x, v.1, i⟩) := by
      intro v hv
      obtain ⟨range, index⟩ := row_mem v hv
      rw [index]
      exact rowVisitsIn_eq faithful hwidth fits inside hround range enough
    simp only [roundVisitsIn, rowStart, rows, Option.bind_eq_bind, Option.bind_some]
    rw [mapM_eq_some parts, roundVisits, List.flatMap_def]
    rfl
  · intro v hv
    obtain ⟨range, index⟩ := row_mem v hv
    have nonneg : 0 ≤ v.1 := y1_nonneg.trans range.1
    have below : v.1 < height := range.2.trans_le y2_le
    obtain ⟨start_nonneg, row, wide, tall⟩ := row_bounds hwidth nonneg below
    rw [index]
    exact ⟨inRange_of_nonneg (by omega) (by omega), inRange_of_nonneg (by omega) (by omega)⟩

/-- **All rounds.** -/
theorem visitsIn_eq (faithful : Faithful 32 arith) (hwidth : 1 ≤ width)
    (fits : width * height + 4 ≤ 2 ^ 31 - 1) (inside : rect.Inside width height)
    (enoughRounds : 5 ≤ fuel) (enoughRows : (rect.y2 - rect.y1).toNat ≤ fuel)
    (enough : (rect.x2 - rect.x1).toNat ≤ fuel) :
    visitsIn arith fuel width rect = some (pfVisits width rect) := by
  have all : countingIn arith rounds 1 0 fuel (0, 0) = some _ :=
    countingIn_eq faithful one_pos enoughRounds ?_
  · have parts : ∀ v ∈ counting rounds 1 0 (0, 0),
        roundVisitsIn arith fuel width rect v.1 =
          some (roundVisits rounds stagger width rect v.1) := by
      intro v hv
      exact roundVisitsIn_eq faithful hwidth fits inside (mem_counting_rounds.mp hv).1
        enoughRows enough
    simp only [visitsIn, all, Option.bind_eq_bind, Option.bind_some]
    rw [mapM_eq_some parts, pfVisits, visits, List.flatMap_def]
    rfl
  · intro v hv
    obtain ⟨⟨nonneg, below⟩, second⟩ := mem_counting_rounds.mp hv
    have few : v.1 < 5 := below
    rw [second]
    exact ⟨inRange_of_nonneg (by omega) (by omega), inRange_of_nonneg (by omega) (by omega)⟩

end Loops

/-- The index of a pixel lies within the frame. -/
theorem index_bounds {width height : ℤ} {rect : EvdiRect} (hwidth : 1 ≤ width)
    (inside : rect.Inside width height) {v : Visit} (hv : v ∈ pfVisits width rect) :
    0 ≤ v.i ∧ v.i < width * height := by
  obtain ⟨⟨⟨left, right⟩, above, below⟩, index⟩ := (mem_pfVisits inside.y1_nonneg).mp hv
  have column : 0 ≤ v.x ∧ v.x < width :=
    ⟨inside.x1_nonneg.trans left, right.trans_le inside.x2_le_width⟩
  obtain ⟨start_nonneg, row, -, -⟩ := row_bounds hwidth
    (inside.y1_nonneg.trans above) (below.trans_le inside.y2_le_height)
  have start_nonneg' : 0 ≤ v.y * width := start_nonneg
  have row' : v.y * width + width ≤ width * height := row
  rw [index]
  omega

/-- The two counters in the body of the loops. -/
theorem counters_inRange {B : Type u} {mem : B → ℤ → Word} {c : Client B} {fb : B}
    {bgcolor : Word} (ready : c.Ready) (size : c.numConns ≤ 2147483647)
    (skip : c.skipReblit < reblitFrequency) (vs : List Visit) :
    InRange 32 ((blitPixels mem fb bgcolor c vs).1.activeConn + 1) ∧
      InRange 32 ((blitPixels mem fb bgcolor c vs).1.skipReblit + 1) := by
  rw [blitPixels_client ready, after]
  have index := Nat.mod_lt (c.activeConn + vs.length) ready.numConns_pos
  have counter := Nat.mod_lt (c.skipReblit + vs.length) (show 0 < reblitFrequency by decide)
  have small : reblitFrequency = 23 := rfl
  simp only
  refine ⟨inRange_of_nonneg (by omega) (by omega), inRange_of_nonneg (by omega) ?_⟩
  split
  · omega
  · omega

/-- **The `int` arithmetic is safe** in a frame of any size up to `2 ^ 31 - 5`
pixels, for every rectangle inside it: no operation of the loops overflows, so
wrapping arithmetic visits the pixels of exact arithmetic; and the framebuffers
are read within the frame. -/
theorem index_arithmetic {B : Type u} (width height : ℤ) (hwidth : 1 ≤ width)
    (fits : width * height + 4 ≤ 2 ^ 31 - 1) (rect : EvdiRect)
    (inside : rect.Inside width height) :
    (∃ enough, ∀ fuel ≥ enough,
      visitsIn (checked 32) fuel width rect = some (pfVisits width rect) ∧
        visitsIn (wrapping 32) fuel width rect = some (pfVisits width rect)) ∧
    (∀ v ∈ pfVisits width rect, 0 ≤ v.i ∧ v.i < width * height) ∧
    ∀ (mem : B → ℤ → Word) (c : Client B) (fb : B) (bgcolor : Word) (vs : List Visit),
      c.Ready → c.numConns ≤ 2147483647 → c.skipReblit < reblitFrequency →
        InRange 32 ((blitPixels mem fb bgcolor c vs).1.activeConn + 1) ∧
          InRange 32 ((blitPixels mem fb bgcolor c vs).1.skipReblit + 1) := by
  refine ⟨⟨5 + (rect.y2 - rect.y1).toNat + (rect.x2 - rect.x1).toNat, ?_⟩,
    fun v hv => index_bounds hwidth inside hv,
    fun mem c fb bgcolor vs ready size skip => counters_inRange ready size skip vs⟩
  intro fuel enough
  exact ⟨visitsIn_eq (faithful_checked 32) hwidth fits inside (by omega) (by omega) (by omega),
    visitsIn_eq (faithful_wrapping (by decide)) hwidth fits inside (by omega) (by omega)
      (by omega)⟩

/-- The end of the longest line there may be, sent over two connections. -/
theorem index_arithmetic_limit :
    let rect : EvdiRect := ⟨2147483640, 0, 2147483643, 1⟩
    let vs := pfVisits 2147483643 rect
    let sent := (blitPixels (fun _ _ => 0) () pfNoBgcolor
      (Client.connected [3, 4] : Client Unit) vs).1
    (∃ enough, ∀ fuel ≥ enough,
      visitsIn (checked 32) fuel 2147483643 rect = some vs ∧
        visitsIn (wrapping 32) fuel 2147483643 rect = some vs) ∧
      InRange 32 (sent.activeConn + 1) ∧ InRange 32 (sent.skipReblit + 1) := by
  intro rect vs sent
  obtain ⟨visited, -, counters⟩ := index_arithmetic (B := Unit) 2147483643 1 (by decide)
    (by decide) rect ⟨by decide, by decide, by decide, by decide, by decide, by decide⟩
  exact ⟨visited, counters _ _ _ _ vs (by decide) (by decide) (by decide)⟩

/-- One pixel more, and the last stride overflows. -/
example : visitsIn (checked 32) 5 2147483644 ⟨2147483643, 0, 2147483644, 1⟩ = none := by
  decide

end Kernelflut.Pixelflut
