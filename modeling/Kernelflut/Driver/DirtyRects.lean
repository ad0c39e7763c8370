import Kernelflut.Foundations.MachineInt
import Kernelflut.Foundations.Merging
import Kernelflut.Pixelflut.Visits

/-!
# The dirty rectangles of the evdi driver

The painter of the driver remembers what has been drawn since the last grab, in at
most `MAX_DIRTS` rectangles.  When there is no room for one more, it first merges
pairs whose bounding rectangle is no larger than the two of them, and if that does
not help it collapses all of them into one.

`merge_dirty_rects` works in the array: the bounding rectangle goes to the place of
the first of the pair, the last rectangle to that of the second, and the inner
loop starts over ("repass").  `merges_mergeDirtyRects` says that this is a
sequence of merges of admissible pairs, whatever the order; so no pixel is lost,
and there are never more pixels to copy than before.

The fields of a `drm_clip_rect` are `unsigned short`s, and `u16` is the conversion
to one.  Products of them fit an `int` in any mode the driver allows.
-/

namespace Kernelflut.Driver

open Kernelflut.Pixelflut MachineInt Merging

/-- `#define MAX_DIRTS 16` -/
def maxDirts : ℕ := 16

/-- `struct drm_clip_rect` -/
@[ext] structure DrmClipRect where
  x1 : ℕ
  y1 : ℕ
  x2 : ℕ
  y2 : ℕ
  deriving DecidableEq, Repr

namespace DrmClipRect

/-- The same rectangle with `int`s, as `evdi_grab_pixels` reports it. -/
def toEvdiRect (r : DrmClipRect) : EvdiRect := ⟨r.x1, r.y1, r.x2, r.y2⟩

def pixels (r : DrmClipRect) : Set Pos := r.toEvdiRect.pixels

instance (r : DrmClipRect) : DecidablePred (· ∈ r.pixels) :=
  inferInstanceAs (DecidablePred (· ∈ r.toEvdiRect.pixels))

/-- The rectangle is half open. -/
theorem mem_pixels {r : DrmClipRect} {p : Pos} :
    p ∈ r.pixels ↔ ((r.x1 : ℤ) ≤ p.1 ∧ p.1 < r.x2) ∧ (r.y1 : ℤ) ≤ p.2 ∧ p.2 < r.y2 :=
  Iff.rfl

/-- The pixels between its corners, whichever of them is first. -/
def span (r : DrmClipRect) : Set Pos :=
  {p | (min (r.x1 : ℤ) r.x2 ≤ p.1 ∧ p.1 < max (r.x1 : ℤ) r.x2) ∧
    min (r.y1 : ℤ) r.y2 ≤ p.2 ∧ p.2 < max (r.y1 : ℤ) r.y2}

instance (r : DrmClipRect) : DecidablePred (· ∈ r.span) := fun p =>
  inferInstanceAs (Decidable ((min (r.x1 : ℤ) r.x2 ≤ p.1 ∧ p.1 < max (r.x1 : ℤ) r.x2) ∧
    min (r.y1 : ℤ) r.y2 ≤ p.2 ∧ p.2 < max (r.y1 : ℤ) r.y2))

/-- The rectangle lies inside a frame. -/
structure Within (r : DrmClipRect) (width height : ℕ) : Prop where
  x1_le_x2 : r.x1 ≤ r.x2
  x2_le_width : r.x2 ≤ width
  y1_le_y2 : r.y1 ≤ r.y2
  y2_le_height : r.y2 ≤ height

end DrmClipRect

/-- The conversion to `unsigned short`. -/
def u16 (z : ℤ) : ℕ := (z % 65536).toNat

/-- `expand_rect(a, b)`: what becomes of `*a`. -/
def expandRect (a b : DrmClipRect) : DrmClipRect where
  x1 := min a.x1 b.x1
  y1 := min a.y1 b.y1
  x2 := max a.x2 b.x2
  y2 := max a.y2 b.y2

/-- `rect_area(r)` -/
def rectArea (r : DrmClipRect) : ℤ := ((r.x2 : ℤ) - r.x1) * ((r.y2 : ℤ) - r.y1)

/-- "collapse to bounding rect if it is fewer pixels" -/
def Mergeable (a b : DrmClipRect) : Prop :=
  rectArea (expandRect a b) ≤ rectArea a + rectArea b

instance (a b : DrmClipRect) : Decidable (Mergeable a b) :=
  inferInstanceAs (Decidable (rectArea (expandRect a b) ≤ rectArea a + rectArea b))

/-- The inner loop of `merge_dirty_rects`, from `b` on; `a` is before `b`. -/
def mergeInto (a b : ℕ) (rects : List DrmClipRect) : List DrmClipRect :=
  if h : a < b ∧ b < rects.length then
    if Mergeable rects[a] rects[b] then
      -- The place of `rects[b]` is taken by the last one, and all are tried again.
      mergeInto a (a + 1) (swapRemove (rects.set a (expandRect rects[a] rects[b])) b)
    else mergeInto a (b + 1) rects
  else rects
termination_by (rects.length, rects.length - b)
decreasing_by
  · left
    rw [length_swapRemove, List.length_set]
    omega
  · right
    omega

/-- Each merge takes one rectangle away, so the "repass" comes to an end. -/
theorem length_mergeInto_le (a b : ℕ) (rects : List DrmClipRect) :
    (mergeInto a b rects).length ≤ rects.length := by
  fun_induction mergeInto a b rects with
  | case1 b rects h mergeable ih =>
      rw [length_swapRemove, List.length_set] at ih
      omega
  | case2 b rects h other ih => exact ih
  | case3 b rects h => exact le_rfl

/-- The outer loop, from `a` on. -/
def mergeFrom (a : ℕ) (rects : List DrmClipRect) : List DrmClipRect :=
  if a + 1 < rects.length then mergeFrom (a + 1) (mergeInto a (a + 1) rects) else rects
termination_by rects.length - a
decreasing_by
  have := length_mergeInto_le a (a + 1) rects
  omega

/-- `merge_dirty_rects(rects, count)` -/
def mergeDirtyRects (rects : List DrmClipRect) : List DrmClipRect := mergeFrom 0 rects

/-- `collapse_dirty_rects(rects, count)`.  There is at least one when it is called. -/
def collapseDirtyRects : List DrmClipRect → List DrmClipRect
  | [] => []
  | r :: rects => [rects.foldl expandRect r]

/-- The tail of `evdi_painter_mark_dirty`: one rectangle more. -/
def addDirtyRect (rects : List DrmClipRect) (rect : DrmClipRect) : List DrmClipRect :=
  let rects := if rects.length = maxDirts then mergeDirtyRects rects else rects
  let rects := if rects.length = maxDirts then collapseDirtyRects rects else rects
  rects ++ [rect]

/-- `evdi_framebuffer_sanitize_rect(fb, dirty_rect)` -/
def sanitizeRect (width height : ℕ) (dirtyRect : DrmClipRect) : DrmClipRect :=
  let rect := dirtyRect
  let rect := if rect.x2 < rect.x1 then { rect with x1 := rect.x2, x2 := rect.x1 } else rect
  let rect := if rect.y2 < rect.y1 then { rect with y1 := rect.y2, y2 := rect.y1 } else rect
  let rect := if width < rect.x1 then { rect with x1 := width } else rect
  let rect := if height < rect.y1 then { rect with y1 := height } else rect
  let rect := if width < rect.x2 then { rect with x2 := width } else rect
  if height < rect.y2 then { rect with y2 := height } else rect

/-! ## Bounding rectangles -/

section Expand

variable {a b : DrmClipRect} {width height : ℕ}

/-- The bounding rectangle has the pixels of the first, -/
theorem pixels_subset_expandRect_left (a b : DrmClipRect) :
    a.pixels ⊆ (expandRect a b).pixels := by
  intro p hp
  simp only [DrmClipRect.mem_pixels, expandRect] at hp ⊢
  omega

/-- and those of the second. -/
theorem pixels_subset_expandRect_right (a b : DrmClipRect) :
    b.pixels ⊆ (expandRect a b).pixels := by
  intro p hp
  simp only [DrmClipRect.mem_pixels, expandRect] at hp ⊢
  omega

/-- Two rectangles inside the frame have a bounding rectangle inside it. -/
theorem DrmClipRect.Within.expandRect (ha : a.Within width height)
    (hb : b.Within width height) :
    (expandRect a b).Within width height where
  x1_le_x2 := (min_le_left _ _).trans (ha.x1_le_x2.trans (le_max_left _ _))
  x2_le_width := max_le ha.x2_le_width hb.x2_le_width
  y1_le_y2 := (min_le_left _ _).trans (ha.y1_le_y2.trans (le_max_left _ _))
  y2_le_height := max_le ha.y2_le_height hb.y2_le_height

/-- As `pf_set_buf` is handed it, it is inside the frame too. -/
theorem DrmClipRect.Within.inside (h : a.Within width height) :
    a.toEvdiRect.Inside width height where
  x1_nonneg := Int.natCast_nonneg _
  x1_le_x2 := Int.ofNat_le.mpr h.x1_le_x2
  x2_le_width := Int.ofNat_le.mpr h.x2_le_width
  y1_nonneg := Int.natCast_nonneg _
  y1_le_y2 := Int.ofNat_le.mpr h.y1_le_y2
  y2_le_height := Int.ofNat_le.mpr h.y2_le_height

/-- The area of a rectangle in a frame is at most the frame's. -/
theorem DrmClipRect.Within.rectArea_bounds (h : a.Within width height) :
    0 ≤ rectArea a ∧ rectArea a ≤ width * height := by
  obtain ⟨hx, hw, hy, hh⟩ := h
  have wide : (0 : ℤ) ≤ (a.x2 : ℤ) - a.x1 := by omega
  have tall : (0 : ℤ) ≤ (a.y2 : ℤ) - a.y1 := by omega
  refine ⟨mul_nonneg wide tall, ?_⟩
  exact mul_le_mul (by omega) (by omega) tall (by omega)

end Expand

/-! ## Merging and collapsing -/

/-- All the pixels that are dirty. -/
def dirtyArea (rects : List DrmClipRect) : Set Pos := cover DrmClipRect.pixels rects

/-- One rectangle more. -/
theorem dirtyArea_cons (r : DrmClipRect) (rects : List DrmClipRect) :
    dirtyArea (r :: rects) = r.pixels ∪ dirtyArea rects := by
  ext p
  simp [dirtyArea, cover]

/-- The inner loop only merges admissible pairs, -/
theorem merges_mergeInto (a b : ℕ) (rects : List DrmClipRect) :
    Merges expandRect Mergeable rects (mergeInto a b rects) := by
  fun_induction mergeInto a b rects with
  | case1 b rects h mergeable ih => exact (merges_swapRemove h.1 h.2 mergeable).trans ih
  | case2 b rects h other ih => exact ih
  | case3 b rects h => exact .refl rects

/-- and so does the outer one. -/
theorem merges_mergeFrom (a : ℕ) (rects : List DrmClipRect) :
    Merges expandRect Mergeable rects (mergeFrom a rects) := by
  fun_induction mergeFrom a rects with
  | case1 a rects more ih => exact (merges_mergeInto a (a + 1) rects).trans ih
  | case2 a rects last => exact .refl rects

/-- **The merging algorithm** only merges, and only pairs that take no more pixels
together. -/
theorem merges_mergeDirtyRects (rects : List DrmClipRect) :
    Merges expandRect Mergeable rects (mergeDirtyRects rects) :=
  merges_mergeFrom 0 rects

/-- Collapsing merges too, whatever it costs. -/
theorem merges_collapseDirtyRects (rects : List DrmClipRect) :
    Merges expandRect (fun _ _ => True) rects (collapseDirtyRects rects) := by
  cases rects with
  | nil => exact .refl []
  | cons r rects =>
      rw [collapseDirtyRects]
      induction rects generalizing r with
      | nil => exact .refl [r]
      | cons s rects ih => exact .merge (.refl _) trivial (ih (expandRect r s))

section Merged

variable {ok : DrmClipRect → DrmClipRect → Prop} {rects rects' : List DrmClipRect}
  {width height : ℕ}

/-- **No pixel is lost** by merging. -/
theorem dirtyArea_subset_of_merges (h : Merges expandRect ok rects rects') :
    dirtyArea rects ⊆ dirtyArea rects' :=
  h.subset_cover pixels_subset_expandRect_left pixels_subset_expandRect_right

/-- No merge leaves the frame. -/
theorem within_of_merges (h : Merges expandRect ok rects rects')
    (within : ∀ r ∈ rects, r.Within width height) : ∀ r ∈ rects', r.Within width height :=
  h.forall_mem (fun _ _ ha hb => ha.expandRect hb) within

end Merged

/-- The number of pixels that a grab would copy. -/
def totalArea (rects : List DrmClipRect) : ℤ := (rects.map rectArea).sum

/-- A frame of a mode that `evdi_modeset_init` admits: "max_width = 3840",
"max_height = 2160". -/
def Admitted (width height : ℕ) : Prop := width ≤ 3840 ∧ height ≤ 2160

/-- The areas that are compared are `int`s. -/
theorem rectArea_inRange {a b : DrmClipRect} {width height : ℕ}
    (mode : Admitted width height) (ha : a.Within width height)
    (hb : b.Within width height) :
    InRange 32 (rectArea (expandRect a b)) ∧ InRange 32 (rectArea a + rectArea b) := by
  have frame : (width : ℤ) * height ≤ 3840 * 2160 :=
    mul_le_mul (by exact_mod_cast mode.1) (by exact_mod_cast mode.2)
      (Int.natCast_nonneg _) (by norm_num)
  have joined := (ha.expandRect hb).rectArea_bounds
  have first := ha.rectArea_bounds
  have second := hb.rectArea_bounds
  simp only [InRange]
  norm_num
  omega

/-- **What `merge_dirty_rects` does** to any list: it loses no dirty pixel and adds no
rectangle.  In a frame of an admitted mode it stays inside the frame and adds no pixel to
copy, and whatever pair it compares on the way, with `rects'` in the array, the areas are
`int`s. -/
theorem mergeDirtyRects_spec (rects : List DrmClipRect) :
    dirtyArea rects ⊆ dirtyArea (mergeDirtyRects rects) ∧
      (mergeDirtyRects rects).length ≤ rects.length ∧
      ∀ width height, Admitted width height → (∀ r ∈ rects, r.Within width height) →
        (∀ r ∈ mergeDirtyRects rects, r.Within width height) ∧
          totalArea (mergeDirtyRects rects) ≤ totalArea rects ∧
          ∀ rects', Merges expandRect Mergeable rects rects' → ∀ a ∈ rects', ∀ b ∈ rects',
            InRange 32 (rectArea (expandRect a b)) ∧
            InRange 32 (rectArea a + rectArea b) := by
  have merges := merges_mergeDirtyRects rects
  refine ⟨dirtyArea_subset_of_merges merges, merges.length_le,
    fun width height mode within =>
    ⟨within_of_merges merges within, merges.sum_le fun _ _ mergeable => mergeable,
      fun rects' onTheWay a ha b hb => ?_⟩⟩
  have within' := within_of_merges onTheWay within
  exact rectArea_inRange mode (within' a ha) (within' b hb)

/-- Two tiles side by side. -/
theorem mergeDirtyRects_spec_tiles :
    ∀ r ∈ mergeDirtyRects [⟨0, 0, 2, 2⟩, ⟨2, 0, 4, 2⟩], r.Within 4 2 := by
  refine ((mergeDirtyRects_spec _).2.2 4 2 ⟨by norm_num, by norm_num⟩ ?_).1
  simp only [List.forall_mem_cons, List.not_mem_nil, false_implies, implies_true, and_true]
  exact ⟨⟨by decide, by decide, by decide, by decide⟩, by decide, by decide,
    by decide, by decide⟩

/-! ## One rectangle more -/

section Add

variable {rects : List DrmClipRect} {rect : DrmClipRect} {width height : ℕ}

/-- **The array never overflows**: there is room for the rectangle, behind what the
others were merged to. -/
theorem addDirtyRect_cases (few : rects.length ≤ maxDirts) (rect : DrmClipRect) :
    ∃ kept, addDirtyRect rects rect = kept ++ [rect] ∧ kept.length < maxDirts ∧
      Merges expandRect (fun _ _ => True) rects kept := by
  have merged : Merges expandRect (fun _ _ => True) rects (mergeDirtyRects rects) :=
    (merges_mergeDirtyRects rects).mono fun _ _ _ => trivial
  unfold addDirtyRect
  by_cases full : rects.length = maxDirts
  · simp only [full, if_true]
    have collapsed := merged.trans (merges_collapseDirtyRects (mergeDirtyRects rects))
    by_cases still : (mergeDirtyRects rects).length = maxDirts
    · rw [if_pos still]
      refine ⟨_, rfl, ?_, collapsed⟩
      cases hrects : mergeDirtyRects rects with
      | nil => exact Nat.zero_lt_succ _
      | cons r rest => exact Nat.one_lt_succ_succ _
    · rw [if_neg still]
      have := merged.length_le
      exact ⟨_, rfl, by omega, merged⟩
  · simp only [full, if_false]
    exact ⟨rects, rfl, by omega, .refl rects⟩

/-- There is room for one more rectangle. -/
theorem length_addDirtyRect_le (few : rects.length ≤ maxDirts) (rect : DrmClipRect) :
    (addDirtyRect rects rect).length ≤ maxDirts := by
  obtain ⟨kept, added, room, -⟩ := addDirtyRect_cases few rect
  rw [added, List.length_append, List.length_singleton]
  exact room

/-- It has been added, and nothing has been lost. -/
theorem subset_dirtyArea_addDirtyRect (few : rects.length ≤ maxDirts) (rect : DrmClipRect) :
    dirtyArea rects ∪ rect.pixels ⊆ dirtyArea (addDirtyRect rects rect) := by
  obtain ⟨kept, added, -, merges⟩ := addDirtyRect_cases few rect
  rw [added, dirtyArea, dirtyArea, cover_append]
  refine Set.union_subset_union (dirtyArea_subset_of_merges merges) fun p hp => ?_
  exact ⟨rect, List.mem_singleton_self rect, hp⟩

/-- A rectangle of the frame, added to others of the frame. -/
theorem within_addDirtyRect (few : rects.length ≤ maxDirts)
    (within : ∀ r ∈ rects, r.Within width height) (hrect : rect.Within width height) :
    ∀ r ∈ addDirtyRect rects rect, r.Within width height := by
  obtain ⟨kept, added, -, merges⟩ := addDirtyRect_cases few rect
  intro r hr
  rw [added, List.mem_append, List.mem_singleton] at hr
  rcases hr with hr | rfl
  · exact within_of_merges merges within r hr
  · exact hrect

end Add

/-! ## Rectangles from outside -/

/-- In closed form: the corners are put in order, and moved into the frame. -/
theorem sanitizeRect_eq (width height : ℕ) (r : DrmClipRect) :
    sanitizeRect width height r =
      ⟨min (min r.x1 r.x2) width, min (min r.y1 r.y2) height,
        min (max r.x1 r.x2) width, min (max r.y1 r.y2) height⟩ := by
  have swap : ∀ m n : ℕ, (if n < m then n else m) = min m n ∧
      (if n < m then m else n) = max m n := by
    intro m n
    split <;> omega
  ext <;> simp only [sanitizeRect, apply_ite DrmClipRect.x1, apply_ite DrmClipRect.x2,
    apply_ite DrmClipRect.y1, apply_ite DrmClipRect.y2, ite_self, swap]

/-- Whatever the rectangle, what is left of it lies inside the frame. -/
theorem sanitizeRect_within (width height : ℕ) (r : DrmClipRect) :
    (sanitizeRect width height r).Within width height := by
  rw [sanitizeRect_eq]
  constructor <;> dsimp only <;> omega

/-- What is kept: the part inside the frame, whichever corners were given. -/
theorem mem_pixels_sanitizeRect {width height : ℕ} {r : DrmClipRect} {p : Pos} :
    p ∈ (sanitizeRect width height r).pixels ↔ p ∈ r.span ∧ p.1 < width ∧ p.2 < height := by
  rw [sanitizeRect_eq, DrmClipRect.mem_pixels, DrmClipRect.span, Set.mem_ofPred_eq]
  push_cast
  omega

/-! ## A frame that is dirty altogether -/

section WholeFrame

variable {rects : List DrmClipRect} {width height : ℕ}

/-- The rectangle of the whole frame. -/
def wholeFrame (width height : ℕ) : DrmClipRect := ⟨0, 0, width, height⟩

/-- Whatever is merged with it is lost in it, and everything may be. -/
theorem expandRect_wholeFrame {r : DrmClipRect} (within : r.Within width height) :
    (expandRect (wholeFrame width height) r = wholeFrame width height ∧
        Mergeable (wholeFrame width height) r) ∧
      expandRect r (wholeFrame width height) = wholeFrame width height ∧
        Mergeable r (wholeFrame width height) := by
  have area := within.rectArea_bounds.1
  obtain ⟨-, right, -, below⟩ := within
  have left : expandRect (wholeFrame width height) r = wholeFrame width height := by
    ext <;> simp [expandRect, wholeFrame, right, below]
  have right : expandRect r (wholeFrame width height) = wholeFrame width height := by
    ext <;> simp [expandRect, wholeFrame, right, below]
  refine ⟨⟨left, ?_⟩, right, ?_⟩
  · rw [Mergeable, left]
    omega
  · rw [Mergeable, right]
    omega

/-- It swallows everything in the first pass of the outer loop: it is in the place of the
rectangle that the others are merged into, or still to come. -/
theorem mergeInto_wholeFrame {b : ℕ} (after : 0 < b)
    (within : ∀ r ∈ rects, r.Within width height)
    (there : rects[0]? = some (wholeFrame width height) ∧ b = 1 ∨
      ∃ k, b ≤ k ∧ rects[k]? = some (wholeFrame width height)) :
    mergeInto 0 b rects = [wholeFrame width height] := by
  fun_induction mergeInto 0 b rects with
  | case1 b rects h mergeable ih =>
      have any := fun r hr => expandRect_wholeFrame (within r hr)
      have kept : wholeFrame width height ∈
          swapRemove (rects.set 0 (expandRect rects[0] rects[b])) b := by
        have inside : b < (rects.set 0 (expandRect rects[0] rects[b])).length := by
          rw [List.length_set]
          exact h.2
        rcases there with ⟨first, rfl⟩ | ⟨k, hk, here⟩
        · obtain ⟨_, first⟩ := List.getElem?_eq_some_iff.mp first
          refine mem_swapRemove inside h.1.ne ?_
          rw [List.getElem?_set_self (h.1.trans h.2), first,
            (any _ (List.getElem_mem h.2)).1.1]
        · rcases hk.eq_or_lt with rfl | later
          · obtain ⟨_, here⟩ := List.getElem?_eq_some_iff.mp here
            refine mem_swapRemove inside h.1.ne ?_
            rw [List.getElem?_set_self (h.1.trans h.2), here,
              (any _ (List.getElem_mem _)).2.1]
          · refine mem_swapRemove inside later.ne' ?_
            rw [List.getElem?_set_ne (h.1.trans later).ne]
            exact here
      have joined := within_of_merges (merges_swapRemove h.1 h.2 mergeable) within
      obtain ⟨k, here⟩ := List.mem_iff_getElem?.mp kept
      refine ih Nat.one_pos joined ?_
      cases k with
      | zero => exact Or.inl ⟨here, rfl⟩
      | succ k => exact Or.inr ⟨k + 1, Nat.le_add_left 1 k, here⟩
  | case2 b rects h other ih =>
      have any := fun r hr => expandRect_wholeFrame (within r hr)
      refine ih (Nat.succ_pos b) within (Or.inr ?_)
      rcases there with ⟨first, -⟩ | ⟨k, hk, here⟩
      · obtain ⟨_, first⟩ := List.getElem?_eq_some_iff.mp first
        rw [first] at other
        exact absurd (any _ (List.getElem_mem h.2)).1.2 other
      · refine ⟨k, Nat.lt_of_le_of_ne hk ?_, here⟩
        rintro rfl
        obtain ⟨_, here⟩ := List.getElem?_eq_some_iff.mp here
        rw [here] at other
        exact absurd (any _ (List.getElem_mem _)).2.2 other
  | case3 b rects h =>
      rcases there with ⟨first, rfl⟩ | ⟨k, hk, here⟩
      · obtain ⟨inside, first⟩ := List.getElem?_eq_some_iff.mp first
        obtain ⟨r, rfl⟩ := List.length_eq_one_iff.mp (show rects.length = 1 by omega)
        exact congrArg (fun r => [r]) first
      · obtain ⟨inside, -⟩ := List.getElem?_eq_some_iff.mp here
        omega

/-- **One rectangle for the whole frame**, when it is among the dirty ones. -/
theorem mergeDirtyRects_wholeFrame (within : ∀ r ∈ rects, r.Within width height)
    (whole : wholeFrame width height ∈ rects) :
    mergeDirtyRects rects = [wholeFrame width height] := by
  obtain ⟨k, here⟩ := List.mem_iff_getElem?.mp whole
  rw [mergeDirtyRects, mergeFrom]
  split
  · have merged : mergeInto 0 (0 + 1) rects = [wholeFrame width height] := by
      refine mergeInto_wholeFrame Nat.one_pos within ?_
      cases k with
      | zero => exact Or.inl ⟨here, rfl⟩
      | succ k => exact Or.inr ⟨k + 1, Nat.le_add_left 1 k, here⟩
    rw [merged, mergeFrom]
    exact if_neg (by simp)
  · next few =>
      obtain ⟨inside, -⟩ := List.getElem?_eq_some_iff.mp here
      obtain ⟨r, rfl⟩ := List.length_eq_one_iff.mp (show rects.length = 1 by omega)
      rw [List.mem_singleton.mp whole]

end WholeFrame

end Kernelflut.Driver
