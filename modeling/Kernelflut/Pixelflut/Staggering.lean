import Kernelflut.Pixelflut.Visits

/-!
# What the staggering is good for

The order in which `pf_set_buf` visits its rectangle is unusual, and two things
are asked of it.  Taken over all rounds it must still be an order of the whole
rectangle: `visits_perm` compares it with the plain row by row one.  And the
pixels of a single round should be spread out, so that a half-sent picture is
coarse and not half missing: `round_spread` says that they are never neighbours,
and that any five pixels in a row or in a column have one of them.

Both are read off the congruence `mem_roundVisits`: in round `r` a row `y` takes
the pixels at a distance `2 * (r + y)` from the left edge, modulo 5.
-/

namespace Kernelflut.Pixelflut

variable {width : ℤ} {rect : EvdiRect}

/-! ## Against the plain order -/

/-- The pixels row by row, each with its own index. -/
def rowMajor (width : ℤ) (rect : EvdiRect) : List Visit :=
  (List.range (rect.y2 - rect.y1).toNat).flatMap fun row : ℕ =>
    (List.range (rect.x2 - rect.x1).toNat).map fun column : ℕ =>
      ⟨rect.x1 + column, rect.y1 + row, (rect.y1 + row) * width + (rect.x1 + column)⟩

theorem mem_rowMajor {v : Visit} :
    v ∈ rowMajor width rect ↔ v.pos ∈ rect.pixels ∧ v.i = v.y * width + v.x := by
  obtain ⟨x, y, i⟩ := v
  simp only [rowMajor, List.mem_flatMap, List.mem_map, List.mem_range, Visit.mk.injEq,
    EvdiRect.mem_pixels, Visit.pos_mk]
  constructor
  · rintro ⟨row, below, column, left, rfl, rfl, rfl⟩
    exact ⟨by omega, rfl⟩
  · rintro ⟨⟨inRow, inColumn⟩, rfl⟩
    have hx : rect.x1 + (x - rect.x1).toNat = x := by omega
    have hy : rect.y1 + (y - rect.y1).toNat = y := by omega
    refine ⟨(y - rect.y1).toNat, by omega, (x - rect.x1).toNat, by omega, hx, hy, ?_⟩
    rw [hx, hy]

theorem rowMajor_nodup : (rowMajor width rect).Nodup := by
  rw [rowMajor, List.Nodup, List.pairwise_flatMap]
  constructor
  · intro row _
    refine List.pairwise_map.mpr (List.nodup_range.imp ?_)
    intro column column' differ same
    simp only [Visit.mk.injEq] at same
    omega
  · refine List.nodup_range.imp ?_
    rintro row row' differ v hv w hw rfl
    obtain ⟨column, -, rfl⟩ := List.mem_map.mp hv
    obtain ⟨column', -, same⟩ := List.mem_map.mp hw
    simp only [Visit.mk.injEq] at same
    omega

/-- **The rounds together** visit every pixel of the rectangle once, at its own
index, for any two coprime constants. -/
theorem visits_perm {rounds stagger : ℤ} (width : ℤ) (rect : EvdiRect)
    (hrounds : 0 < rounds) (hstagger : 0 < stagger) (coprime : IsCoprime stagger rounds)
    (hy1 : 0 ≤ rect.y1) :
    (visits rounds stagger width rect).Perm (rowMajor width rect) := by
  have nodup : (visits rounds stagger width rect).Nodup :=
    (visits_pairwise_pos hrounds coprime).imp fun differ same =>
      differ (congrArg Visit.pos same)
  rw [List.perm_ext_iff_of_nodup nodup rowMajor_nodup]
  intro v
  rw [mem_visits hrounds hstagger coprime hy1, mem_rowMajor]

/-- The compiled constants on the whole screen. -/
theorem visits_perm_screen :
    (visits rounds stagger 800 ⟨0, 0, 800, 600⟩).Perm (rowMajor 800 ⟨0, 0, 800, 600⟩) :=
  visits_perm 800 ⟨0, 0, 800, 600⟩ rounds_pos stagger_pos isCoprime_stagger_rounds
    (by decide)

/-! ## One round -/

/-- The pixels of one round. -/
def roundPixels (width : ℤ) (rect : EvdiRect) (round : ℤ) : Set Pos :=
  {p | p ∈ (roundVisits rounds stagger width rect round).map Visit.pos}

theorem mem_roundPixels (hy1 : 0 ≤ rect.y1) {round : ℤ} (hround : 0 ≤ round) {p : Pos} :
    p ∈ roundPixels width rect round ↔
      p ∈ rect.pixels ∧ (p.1 - rect.x1) % 5 = (round + p.2) * 2 % 5 := by
  have visited := @mem_roundVisits rounds stagger width rect rounds_pos stagger_pos hy1
    round hround
  show p ∈ List.map _ _ ↔ _
  rw [List.mem_map]
  constructor
  · rintro ⟨v, hv, rfl⟩
    obtain ⟨inside, -, residue⟩ := visited.mp hv
    exact ⟨inside, residue⟩
  · rintro ⟨inside, residue⟩
    exact ⟨⟨p.1, p.2, p.2 * width + p.1⟩, visited.mpr ⟨inside, rfl, residue⟩, rfl⟩

/-- Neighbours: next to each other, above each other, or corner to corner. -/
def Adjacent (p q : Pos) : Prop := p ≠ q ∧ |p.1 - q.1| ≤ 1 ∧ |p.2 - q.2| ≤ 1

/-- **The pixels of a round are spread out.**  No two of them are neighbours, and
of any five pixels of the rectangle in a row, or in a column, the round has
exactly one. -/
theorem round_spread (width : ℤ) (rect : EvdiRect) (hy1 : 0 ≤ rect.y1) (round : ℤ)
    (hround : 0 ≤ round ∧ round < rounds) :
    (∀ p ∈ roundPixels width rect round, ∀ q ∈ roundPixels width rect round,
      ¬ Adjacent p q) ∧
    (∀ x y : ℤ, (∀ k : ℤ, 0 ≤ k ∧ k < 5 → (x + k, y) ∈ rect.pixels) →
      ∃! k : ℤ, (0 ≤ k ∧ k < 5) ∧ (x + k, y) ∈ roundPixels width rect round) ∧
    (∀ x y : ℤ, (∀ k : ℤ, 0 ≤ k ∧ k < 5 → (x, y + k) ∈ rect.pixels) →
      ∃! k : ℤ, (0 ≤ k ∧ k < 5) ∧ (x, y + k) ∈ roundPixels width rect round) := by
  simp only [mem_roundPixels hy1 hround.1]
  refine ⟨?_, ?_, ?_⟩
  · rintro ⟨px, py⟩ ⟨-, hp⟩ ⟨qx, qy⟩ ⟨-, hq⟩ ⟨differ, near⟩
    -- One step to the side moves the residue by 1, one step down by 2.
    rw [abs_le, abs_le] at near
    refine differ (Prod.ext ?_ ?_) <;> simp only at * <;> omega
  · intro x y inside
    refine ⟨((round + y) * 2 - (x - rect.x1)) % 5, ⟨by omega, inside _ (by omega), ?_⟩, ?_⟩
    · omega
    · rintro k ⟨range, -, residue⟩
      omega
  · intro x y inside
    -- 3 is the inverse of the stagger modulo 5.
    refine ⟨((x - rect.x1) * 3 - (round + y)) % 5, ⟨by omega, inside _ (by omega), ?_⟩, ?_⟩
    · omega
    · rintro k ⟨range, -, residue⟩
      omega

/-- The second round on a `10 × 10` corner of the screen. -/
theorem round_spread_corner :
    ∃! k : ℤ, (0 ≤ k ∧ k < 5) ∧ (3, 2 + k) ∈ roundPixels 800 ⟨0, 0, 10, 10⟩ 1 := by
  refine (round_spread 800 ⟨0, 0, 10, 10⟩ (by decide) 1 (by decide)).2.2 3 2 ?_
  intro k range
  simp only [EvdiRect.mem_pixels]
  omega

end Kernelflut.Pixelflut
