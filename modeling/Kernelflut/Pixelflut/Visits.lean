import Kernelflut.Foundations.CountedLoop
import Kernelflut.Foundations.CyclicTurns
import Kernelflut.Pixelflut.Pixel
import Mathlib.Data.Int.Interval

/-!
# The staggered visiting order of `pf_set_buf`

`pf_set_buf` walks its rectangle in `ROUNDS` rounds.  In each round it takes
every row, and in a row every `ROUNDS`-th pixel, starting at an offset that
depends on the round and the row ("stagger updates in rounds so we blit pixels
ASAP").  The body of the three loops never assigns the loop variables, so the
pixels come in a fixed order, `visits`, and the body is run over that list.

For any positive `ROUNDS` and `STAGGER` coprime to each other:

* `mem_visits` — the order visits the pixels of the rectangle, with the flat
  index that belongs to each of them, and nothing else;
* `visits_pairwise_pos` — no pixel twice;
* `length_visits` — so as many turns as the rectangle has pixels.

The `int` arithmetic is exact here, and `%` is C's, which takes the sign of the
dividend; a row above the frame would make the offset negative, which is why
`mem_visits` asks for `0 ≤ y1`.
-/

namespace Kernelflut.Pixelflut

open CountedLoop

/-- `#define ROUNDS 5` -/
def rounds : ℤ := 5

/-- `#define STAGGER 2` -/
def stagger : ℤ := 2

/-- `struct evdi_rect`: the half-open rectangle `[x1, x2) × [y1, y2)`. -/
structure EvdiRect where
  x1 : ℤ
  y1 : ℤ
  x2 : ℤ
  y2 : ℤ
  deriving DecidableEq, Repr

namespace EvdiRect

/-- The pixels of the rectangle. -/
def pixels (rect : EvdiRect) : Set Pos :=
  {p | (rect.x1 ≤ p.1 ∧ p.1 < rect.x2) ∧ rect.y1 ≤ p.2 ∧ p.2 < rect.y2}

instance (rect : EvdiRect) : DecidablePred (· ∈ rect.pixels) := fun p =>
  inferInstanceAs (Decidable
    ((rect.x1 ≤ p.1 ∧ p.1 < rect.x2) ∧ rect.y1 ≤ p.2 ∧ p.2 < rect.y2))

@[simp] theorem mem_pixels {rect : EvdiRect} {p : Pos} :
    p ∈ rect.pixels ↔
      (rect.x1 ≤ p.1 ∧ p.1 < rect.x2) ∧ rect.y1 ≤ p.2 ∧ p.2 < rect.y2 := Iff.rfl

/-- How many pixels the rectangle has. -/
def area (rect : EvdiRect) : ℕ := (rect.x2 - rect.x1).toNat * (rect.y2 - rect.y1).toNat

/-- The rectangle lies inside a `width × height` frame. -/
structure Inside (rect : EvdiRect) (width height : ℤ) : Prop where
  x1_nonneg : 0 ≤ rect.x1
  x1_le_x2 : rect.x1 ≤ rect.x2
  x2_le_width : rect.x2 ≤ width
  y1_nonneg : 0 ≤ rect.y1
  y1_le_y2 : rect.y1 ≤ rect.y2
  y2_le_height : rect.y2 ≤ height

end EvdiRect

/-- One turn of the innermost loop body: the pixel `(x, y)` and the flat index
`i` carried along with it. -/
structure Visit where
  x : ℤ
  y : ℤ
  i : ℤ
  deriving DecidableEq, Repr

def Visit.pos (v : Visit) : Pos := (v.x, v.y)

@[simp] theorem Visit.pos_mk (x y i : ℤ) : (Visit.mk x y i).pos = (x, y) := rfl

/-- `row_bias`: where the row `y` starts in this round, relative to `x1`. -/
def rowBias (rounds stagger round y : ℤ) : ℤ :=
  let rowRound := (round + y).tmod rounds
  (rowRound * stagger).tmod rounds

/-- One round: the loops over `y` and `x`, with `row_start_i` and `i` carried
incrementally. -/
def roundVisits (rounds stagger width : ℤ) (rect : EvdiRect) (round : ℤ) :
    List Visit :=
  (counting rect.y2 1 width (rect.y1, rect.y1 * width)).flatMap fun (y, rowStartI) =>
    let xi := rect.x1 + rowBias rounds stagger round y
    (counting rect.x2 rounds rounds (xi, rowStartI + xi)).map fun (x, i) => ⟨x, y, i⟩

/-- All rounds, one after the other. -/
def visits (rounds stagger width : ℤ) (rect : EvdiRect) : List Visit :=
  -- This loop carries no second variable.
  (counting rounds 1 0 (0, 0)).flatMap fun (round, _) =>
    roundVisits rounds stagger width rect round

/-- The visits of `pf_set_buf` as compiled. -/
def pfVisits (width : ℤ) (rect : EvdiRect) : List Visit :=
  visits rounds stagger width rect

/-! ## One round -/

section Round

variable {rounds stagger width : ℤ} {rect : EvdiRect}

/-- With non-negative operands C's `%` is the residue, and the two of them
collapse into one. -/
theorem rowBias_eq (hstagger : 0 < stagger) {round y : ℤ} (hround : 0 ≤ round)
    (hy : 0 ≤ y) (hrounds : 0 < rounds) :
    rowBias rounds stagger round y = (round + y) * stagger % rounds := by
  have sum : 0 ≤ round + y := by omega
  have rowRound : 0 ≤ (round + y) % rounds := Int.emod_nonneg _ hrounds.ne'
  rw [rowBias, Int.tmod_eq_emod_of_nonneg sum,
    Int.tmod_eq_emod_of_nonneg (by positivity), Int.mul_emod, Int.emod_emod,
    ← Int.mul_emod]

/-- Whatever the sign of the row, the residue is the same. -/
theorem rowBias_modEq (rounds stagger round y : ℤ) :
    rowBias rounds stagger round y ≡ (round + y) * stagger [ZMOD rounds] := by
  have residue : ∀ a : ℤ, a.tmod rounds ≡ a [ZMOD rounds] := fun a =>
    Int.modEq_iff_dvd.mpr Int.dvd_self_sub_tmod
  exact (residue _).trans ((residue (round + y)).mul_right stagger)

/-- A row of one round visits the pixels whose distance from `x1` has the
residue `bias`. -/
theorem exists_stride_iff (hrounds : 0 < rounds) {x1 x2 x residue : ℤ} :
    (∃ k : ℕ, x = x1 + residue % rounds + k * rounds ∧
        x1 + residue % rounds + k * rounds < x2) ↔
      (x1 ≤ x ∧ x < x2) ∧ x - x1 ≡ residue [ZMOD rounds] := by
  have bias_nonneg := Int.emod_nonneg residue hrounds.ne'
  have bias_lt := Int.emod_lt_of_pos residue hrounds
  constructor
  · rintro ⟨k, rfl, below⟩
    have stride : 0 ≤ (k : ℤ) * rounds := by positivity
    refine ⟨⟨by omega, below⟩, ?_⟩
    have distance : x1 + residue % rounds + k * rounds - x1 =
        residue % rounds + k * rounds := by ring
    rw [distance, Int.ModEq, Int.add_mul_emod_self_right, Int.emod_emod]
  · rintro ⟨⟨above, below⟩, residue_eq⟩
    have quotient := Int.emod_add_mul_ediv (x - x1) rounds
    have k_nonneg : 0 ≤ (x - x1) / rounds :=
      Int.ediv_nonneg (by omega) hrounds.le
    rw [residue_eq] at quotient
    refine ⟨((x - x1) / rounds).toNat, ?_, ?_⟩
    · rw [Int.toNat_of_nonneg k_nonneg, mul_comm]
      linarith
    · rw [Int.toNat_of_nonneg k_nonneg, mul_comm]
      linarith

/-- **What one round visits.** -/
theorem mem_roundVisits (hrounds : 0 < rounds) (hstagger : 0 < stagger)
    (hy1 : 0 ≤ rect.y1) {round : ℤ} (hround : 0 ≤ round) {v : Visit} :
    v ∈ roundVisits rounds stagger width rect round ↔
      v.pos ∈ rect.pixels ∧ v.i = v.y * width + v.x ∧
        v.x - rect.x1 ≡ (round + v.y) * stagger [ZMOD rounds] := by
  obtain ⟨x, y, i⟩ := v
  simp only [roundVisits, List.mem_flatMap, List.mem_map, Prod.exists,
    mem_counting one_pos, mem_counting hrounds,
    Prod.mk.injEq, Visit.mk.injEq, EvdiRect.mem_pixels, Visit.pos_mk]
  constructor
  · rintro ⟨_, _, ⟨k, ⟨rfl, rfl⟩, row⟩, _, _, ⟨j, ⟨rfl, rfl⟩, column⟩, rfl, rfl, rfl⟩
    rw [rowBias_eq hstagger hround (by omega) hrounds] at column ⊢
    obtain ⟨inside, residue⟩ := (exists_stride_iff hrounds).mp ⟨j, rfl, column⟩
    exact ⟨⟨inside, by omega, row⟩, by ring, residue⟩
  · rintro ⟨⟨inside, above, below⟩, rfl, residue⟩
    obtain ⟨j, hx, column⟩ := (exists_stride_iff hrounds).mpr ⟨inside, residue⟩
    rw [← rowBias_eq hstagger hround (by omega) hrounds] at hx column
    refine ⟨y, y * width, ⟨(y - rect.y1).toNat, ⟨?_, ?_⟩, ?_⟩, x, y * width + x,
      ⟨j, ⟨hx, ?_⟩, column⟩, rfl, rfl, rfl⟩
    · omega
    · rw [Int.toNat_of_nonneg (by omega)]; ring
    · omega
    · rw [hx]; ring

/-- In one round the distance from `x1` has the residue of the row, also above the
frame. -/
theorem residue_of_mem_roundVisits (hrounds : 0 < rounds) {round : ℤ} {v : Visit}
    (hv : v ∈ roundVisits rounds stagger width rect round) :
    v.x - rect.x1 ≡ (round + v.y) * stagger [ZMOD rounds] := by
  simp only [roundVisits, List.mem_flatMap, List.mem_map, Prod.exists,
    mem_counting hrounds, Prod.mk.injEq] at hv
  obtain ⟨y, _, -, _, _, ⟨j, ⟨rfl, rfl⟩, -⟩, rfl⟩ := hv
  show rect.x1 + rowBias rounds stagger round y + j * rounds - rect.x1 ≡ _ [ZMOD rounds]
  have distance : rect.x1 + rowBias rounds stagger round y + j * rounds - rect.x1 =
      rowBias rounds stagger round y + j * rounds := by ring
  rw [distance]
  exact (Int.add_mul_emod_self_right _ _ _).trans (rowBias_modEq rounds stagger round y)

/-- A round visits no pixel twice: the rows are different, and a row moves
strictly to the right. -/
theorem roundVisits_pairwise_pos (hrounds : 0 < rounds) (round : ℤ) :
    (roundVisits rounds stagger width rect round).Pairwise
      fun v w => v.pos ≠ w.pos := by
  rw [roundVisits, List.pairwise_flatMap]
  constructor
  · rintro ⟨y, rowStartI⟩ _
    refine List.pairwise_map.mpr ((counting_pairwise hrounds _).imp ?_)
    intro a b hab heq
    simp only [Visit.pos_mk, Prod.mk.injEq] at heq
    omega
  · refine (counting_pairwise one_pos _).imp ?_
    rintro a b hab v hv w hw heq
    obtain ⟨_, -, rfl⟩ := List.mem_map.mp hv
    obtain ⟨_, -, rfl⟩ := List.mem_map.mp hw
    simp only [Visit.pos_mk, Prod.mk.injEq] at heq
    omega

end Round

/-! ## All rounds -/

section AllRounds

variable {rounds stagger width : ℤ} {rect : EvdiRect}

theorem mem_counting_rounds {round : ℤ × ℤ} :
    round ∈ counting rounds 1 0 (0, 0) ↔
      (0 ≤ round.1 ∧ round.1 < rounds) ∧ round.2 = 0 := by
  obtain ⟨a, b⟩ := round
  rw [mem_counting one_pos]
  constructor
  · rintro ⟨k, h, below⟩
    simp only [Prod.mk.injEq] at h
    simp only at below
    omega
  · rintro ⟨⟨nonneg, below⟩, rfl⟩
    refine ⟨a.toNat, ?_, ?_⟩
    · simp only [Prod.mk.injEq]; omega
    · simp only; omega

/-- The round of a pixel: with `STAGGER` invertible modulo `ROUNDS`, each
distance from `x1` is the offset of the row in exactly one round. -/
theorem existsUnique_round (hrounds : 0 < rounds)
    (coprime : IsCoprime stagger rounds) (distance y : ℤ) :
    ∃! round : ℤ, (0 ≤ round ∧ round < rounds) ∧
      distance ≡ (round + y) * stagger [ZMOD rounds] := by
  -- The row's own offset goes to the other side of the congruence.
  have shifted : ∀ round : ℤ, distance ≡ (round + y) * stagger [ZMOD rounds] ↔
      round * stagger ≡ distance - y * stagger [ZMOD rounds] := by
    intro round
    rw [Int.modEq_comm, Int.modEq_iff_dvd, Int.modEq_iff_dvd]
    ring_nf
  simp only [shifted]
  exact CyclicTurns.existsUnique_mul_modEq hrounds coprime _

/-- **The rounds cover the rectangle, with the right index, and nothing else.** -/
theorem mem_visits (hrounds : 0 < rounds) (hstagger : 0 < stagger)
    (coprime : IsCoprime stagger rounds) (hy1 : 0 ≤ rect.y1) {v : Visit} :
    v ∈ visits rounds stagger width rect ↔
      v.pos ∈ rect.pixels ∧ v.i = v.y * width + v.x := by
  simp only [visits, List.mem_flatMap, mem_counting_rounds]
  constructor
  · rintro ⟨⟨round, _⟩, ⟨⟨nonneg, -⟩, -⟩, hv⟩
    obtain ⟨inside, index, -⟩ := (mem_roundVisits hrounds hstagger hy1 nonneg).mp hv
    exact ⟨inside, index⟩
  · rintro ⟨inside, index⟩
    obtain ⟨round, ⟨range, residue⟩, -⟩ :=
      existsUnique_round hrounds coprime (v.x - rect.x1) v.y
    exact ⟨(round, 0), ⟨range, rfl⟩,
      (mem_roundVisits hrounds hstagger hy1 range.1).mpr ⟨inside, index, residue⟩⟩

/-- **No pixel is visited twice**, neither within a round nor in two rounds. -/
theorem visits_pairwise_pos (hrounds : 0 < rounds) (coprime : IsCoprime stagger rounds) :
    (visits rounds stagger width rect).Pairwise fun v w => v.pos ≠ w.pos := by
  rw [visits, List.pairwise_flatMap]
  refine ⟨fun round _ => roundVisits_pairwise_pos hrounds round.1, ?_⟩
  refine (counting_pairwise one_pos _).imp_of_mem ?_
  rintro ⟨a, _⟩ ⟨b, _⟩ ha hb hab v hv w hw heq
  obtain ⟨⟨rangeA, -⟩, ⟨rangeB, -⟩⟩ :=
    And.intro (mem_counting_rounds.mp ha) (mem_counting_rounds.mp hb)
  have residueV := residue_of_mem_roundVisits hrounds hv
  have residueW := residue_of_mem_roundVisits hrounds hw
  -- Of one pixel, both rounds would be the round.
  obtain ⟨hx, hy⟩ := Prod.mk.injEq .. ▸ heq
  rw [← hx, ← hy] at residueW
  have same := (existsUnique_round hrounds coprime (v.x - rect.x1) v.y).unique
    ⟨rangeA, residueV⟩ ⟨rangeB, residueW⟩
  simp only at hab
  omega

theorem visits_map_pos_nodup (hrounds : 0 < rounds) (coprime : IsCoprime stagger rounds) :
    ((visits rounds stagger width rect).map Visit.pos).Nodup :=
  List.pairwise_map.mpr (visits_pairwise_pos hrounds coprime)

/-- As many turns as pixels. -/
theorem length_visits (hrounds : 0 < rounds) (hstagger : 0 < stagger)
    (coprime : IsCoprime stagger rounds) (hy1 : 0 ≤ rect.y1) :
    (visits rounds stagger width rect).length = rect.area := by
  have pixels : ((visits rounds stagger width rect).map Visit.pos).toFinset =
      Finset.Ico rect.x1 rect.x2 ×ˢ Finset.Ico rect.y1 rect.y2 := by
    ext p
    simp only [List.mem_toFinset, List.mem_map, mem_visits hrounds hstagger coprime hy1,
      Finset.mem_product, Finset.mem_Ico]
    constructor
    · rintro ⟨v, ⟨inside, -⟩, rfl⟩
      exact inside
    · intro inside
      exact ⟨⟨p.1, p.2, p.2 * width + p.1⟩, ⟨inside, rfl⟩, rfl⟩
  rw [← List.length_map Visit.pos, ← List.toFinset_card_of_nodup
    (visits_map_pos_nodup hrounds coprime), pixels,
    Finset.card_product, Int.card_Ico, Int.card_Ico, EvdiRect.area]

end AllRounds

/-! ## The compiled constants -/

section Compiled

variable {width : ℤ} {rect : EvdiRect}

theorem rounds_pos : 0 < rounds := by decide

theorem stagger_pos : 0 < stagger := by decide

theorem isCoprime_stagger_rounds : IsCoprime stagger rounds :=
  ⟨-2, 1, by decide⟩

theorem mem_pfVisits (hy1 : 0 ≤ rect.y1) {v : Visit} :
    v ∈ pfVisits width rect ↔ v.pos ∈ rect.pixels ∧ v.i = v.y * width + v.x :=
  mem_visits rounds_pos stagger_pos isCoprime_stagger_rounds hy1

theorem pfVisits_map_pos_nodup : ((pfVisits width rect).map Visit.pos).Nodup :=
  visits_map_pos_nodup rounds_pos isCoprime_stagger_rounds

theorem length_pfVisits (hy1 : 0 ≤ rect.y1) :
    (pfVisits width rect).length = rect.area :=
  length_visits rounds_pos stagger_pos isCoprime_stagger_rounds hy1

/-- Every turn is for a pixel of the rectangle, at its own index. -/
theorem pixel_of_turn (hy1 : 0 ≤ rect.y1) {k : ℕ} {v : Visit}
    (hv : (pfVisits width rect)[k]? = some v) :
    v.pos ∈ rect.pixels ∧ v.i = v.y * width + v.x :=
  (mem_pfVisits hy1).mp (List.mem_of_getElem? hv)

/-- Every pixel of the rectangle has a turn. -/
theorem exists_turn (width : ℤ) (hy1 : 0 ≤ rect.y1) {p : Pos} (hp : p ∈ rect.pixels) :
    ∃ k : ℕ, (pfVisits width rect)[k]? = some ⟨p.1, p.2, p.2 * width + p.1⟩ :=
  List.getElem?_of_mem ((mem_pfVisits hy1).mpr ⟨hp, rfl⟩)

/-- No pixel has two. -/
theorem turn_unique {j k : ℕ} {v w : Visit}
    (hj : (pfVisits width rect)[j]? = some v) (hk : (pfVisits width rect)[k]? = some w)
    (same : v.pos = w.pos) : j = k := by
  obtain ⟨bound, -⟩ := List.getElem?_eq_some_iff.mp hj
  have nodup : ((pfVisits width rect).map Visit.pos).Nodup := pfVisits_map_pos_nodup
  refine (List.getElem?_inj (by simpa using bound) nodup).mp ?_
  rw [List.getElem?_map, List.getElem?_map, hj, hk, Option.map_some, Option.map_some,
    same]

/-- A `4 × 2` corner of an 800-pixel-wide frame, in visiting order. -/
example : (pfVisits 800 ⟨0, 0, 4, 2⟩).map Visit.pos =
    [(0, 0), (2, 1), (2, 0), (1, 1), (1, 0), (3, 1), (3, 0), (0, 1)] := by
  decide

end Compiled

end Kernelflut.Pixelflut
