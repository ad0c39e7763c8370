import Kernelflut.Loop.OneRectangle
import Mathlib.Order.CompletePartialOrder

/-!
# Updates with several rectangles

The rectangle loop calls `pf_set_buf` once per rectangle, all on the framebuffer
of the update, and every call ends by making that framebuffer the last one.  So
the first call compares with the buffer blitted before, and each further call
of the same update compares the framebuffer with itself
(`mem_calls_blitRects`): without a background colour it sends nothing.

`commands_of_cuts_iff` says when this does not matter: how a dirty area is cut
into rectangles makes no difference to what is sent, namely the pixels that
differ from the other buffer, exactly when all of these lie in the first
rectangle of either list.
-/

namespace Kernelflut.Loop

open Kernelflut.Pixelflut

variable {B : Type*} {mem : B → ℤ → Word} {fb last : B} {width : ℤ} {bgcolor : Word}
  {c : Client B}

/-- **The calls of an update**: the first one starts in the state the update
found, all others with the framebuffer of the update as the last one. -/
theorem mem_calls_blitRects (ready : c.Ready) {rect : EvdiRect}
    {rects : List EvdiRect} {blit : Blit B}
    (h : blit ∈ (blitRects mem fb width bgcolor c (rect :: rects)).calls) :
    blit = pfSetBuf mem c fb width rect bgcolor ∨
      ∃ c' : Client B, ∃ rect' ∈ rects, c'.Ready ∧ c'.lastBuf = some fb ∧
        blit = pfSetBuf mem c' fb width rect' bgcolor := by
  induction rects generalizing c rect with
  | nil =>
      rw [blitRects_singleton] at h
      exact Or.inl (List.mem_singleton.mp h)
  | cons rect' rects ih =>
      rw [blitRects] at h
      simp only at h
      split at h
      · exact Or.inl (List.mem_singleton.mp h)
      · next zero =>
          rcases List.mem_cons.mp h with rfl | later
          · exact Or.inl rfl
          · -- The call just made returned 0, so `fb` is the last buffer from here on.
            have ready' := pfSetBuf_ready mem fb width rect bgcolor ready
            rcases ih ready' later with rfl | ⟨c', r, hr, readyr, lastr, rfl⟩
            · exact Or.inr ⟨_, rect', List.mem_cons_self, ready',
                pfSetBuf_lastBuf (not_not.mp zero), rfl⟩
            · exact Or.inr ⟨c', r, List.mem_cons_of_mem _ hr, readyr, lastr, rfl⟩

/-- The first call is always made. -/
theorem head_mem_calls_blitRects (c : Client B) (rect : EvdiRect)
    (rects : List EvdiRect) :
    pfSetBuf mem c fb width rect bgcolor ∈
      (blitRects mem fb width bgcolor c (rect :: rects)).calls := by
  rw [blitRects]
  simp only
  split
  · exact List.mem_singleton_self _
  · exact List.mem_cons_self

/-- A buffer compared with itself has nothing to send. -/
theorem commands_pfSetBuf_self (ready : c.Ready) (same : c.lastBuf = some fb)
    {rect : EvdiRect} (hy1 : 0 ≤ rect.y1) (px : Px) :
    px ∉ commands (pfSetBuf mem c fb width rect pfNoBgcolor).turns := by
  rw [mem_commands_pfNoBgcolor ready hy1]
  rintro ⟨p, -, sent, -⟩
  exact sent fb same rfl

/-! ## Cutting a dirty area into rectangles -/

/-- The pixels some rectangle of the list covers. -/
def cover (rects : List EvdiRect) : Set Pos := {p | ∃ rect ∈ rects, p ∈ rect.pixels}

/-- The commands for the pixels of `area` that differ between the buffers. -/
def changes (mem : B → ℤ → Word) (last fb : B) (width : ℤ) (area : Set Pos) : Set Px :=
  {px | ∃ p ∈ area, mem last (p.2 * width + p.1) ≠ mem fb (p.2 * width + p.1) ∧
    px = Px.ofWord p.1 p.2 (mem fb (p.2 * width + p.1))}

/-- What the rectangle loop of an update sends, as a set. -/
def sentSet (mem : B → ℤ → Word) (c : Client B) (fb : B) (width : ℤ)
    (rects : List EvdiRect) : Set Px :=
  {px | px ∈ commandsOf (blitRects mem fb width pfNoBgcolor c rects).calls}

/-- **The condition**: no rectangle but the first has a pixel that differs. -/
def LaterUnchanged (mem : B → ℤ → Word) (last fb : B) (width : ℤ)
    (rects : List EvdiRect) : Prop :=
  ∀ rect ∈ rects.tail, ∀ p ∈ rect.pixels,
    mem last (p.2 * width + p.1) = mem fb (p.2 * width + p.1)

/-- Only the first rectangle is sent. -/
theorem sentSet_cons (ready : c.Ready) (hlast : c.lastBuf = some last)
    {rect : EvdiRect} {rects : List EvdiRect} (hy1 : ∀ r ∈ rect :: rects, 0 ≤ r.y1) :
    sentSet mem c fb width (rect :: rects) = changes mem last fb width rect.pixels := by
  have first : ∀ px, px ∈ commands (pfSetBuf mem c fb width rect pfNoBgcolor).turns ↔
      px ∈ changes mem last fb width rect.pixels := by
    intro px
    rw [mem_commands_pfNoBgcolor ready (hy1 rect List.mem_cons_self)]
    simp [changes, hlast]
  ext px
  rw [← first]
  show px ∈ List.flatMap _ _ ↔ _
  rw [List.mem_flatMap]
  constructor
  · rintro ⟨blit, hblit, hpx⟩
    rcases mem_calls_blitRects ready hblit with rfl | ⟨c', r, hr, ready', last', rfl⟩
    · exact hpx
    · exact absurd hpx
        (commands_pfSetBuf_self ready' last' (hy1 r (List.mem_cons_of_mem _ hr)) px)
  · exact fun h => ⟨_, head_mem_calls_blitRects c rect rects, h⟩

/-- A list of disjoint rectangles sends all changes exactly when they are all in
the first one. -/
theorem sentSet_eq_changes_iff (ready : c.Ready) (hlast : c.lastBuf = some last)
    {rects : List EvdiRect} (hy1 : ∀ r ∈ rects, 0 ≤ r.y1)
    (disjoint : rects.Pairwise fun r r' => Disjoint r.pixels r'.pixels) :
    sentSet mem c fb width rects = changes mem last fb width (cover rects) ↔
      LaterUnchanged mem last fb width rects := by
  cases rects with
  | nil => simp [sentSet, commandsOf, changes, cover, LaterUnchanged]
  | cons rect rects =>
      rw [sentSet_cons ready hlast hy1]
      constructor
      · intro eq r hr p hp
        by_contra differs
        have sent : Px.ofWord p.1 p.2 (mem fb (p.2 * width + p.1)) ∈
            changes mem last fb width rect.pixels := by
          rw [eq]
          exact ⟨p, ⟨r, List.mem_cons_of_mem _ hr, hp⟩, differs, rfl⟩
        obtain ⟨q, hq, -, same⟩ := sent
        have here : p = q := congrArg Px.pos same
        exact (Set.disjoint_left.mp ((List.pairwise_cons.mp disjoint).1 r hr))
          (here ▸ hq) hp
      · intro unchanged
        ext px
        constructor
        · rintro ⟨p, hp, differs, rfl⟩
          exact ⟨p, ⟨rect, List.mem_cons_self, hp⟩, differs, rfl⟩
        · rintro ⟨p, ⟨r, hr, hp⟩, differs, rfl⟩
          rcases List.mem_cons.mp hr with rfl | later
          · exact ⟨p, hp, differs, rfl⟩
          · exact absurd (unchanged r later p hp) differs

/-- **Cutting a dirty area.**  For two lists of disjoint rectangles that cover
the same pixels, the rectangle loop sends the same commands, those of the
pixels that differ from the buffer blitted last, if and only if in both lists
the rectangles after the first have no such pixel. -/
theorem commands_of_cuts_iff (mem : B → ℤ → Word) (c : Client B) (last fb : B)
    (width : ℤ) (rects rects' : List EvdiRect) (ready : c.Ready)
    (hlast : c.lastBuf = some last)
    (hy1 : ∀ r ∈ rects ++ rects', 0 ≤ r.y1)
    (disjoint : rects.Pairwise fun r r' => Disjoint r.pixels r'.pixels)
    (disjoint' : rects'.Pairwise fun r r' => Disjoint r.pixels r'.pixels)
    (same : cover rects = cover rects') :
    (sentSet mem c fb width rects = changes mem last fb width (cover rects) ∧
        sentSet mem c fb width rects' = changes mem last fb width (cover rects)) ↔
      LaterUnchanged mem last fb width rects ∧
        LaterUnchanged mem last fb width rects' := by
  rw [List.forall_mem_append] at hy1
  refine and_congr (sentSet_eq_changes_iff ready hlast hy1.1 disjoint) ?_
  rw [same]
  exact sentSet_eq_changes_iff ready hlast hy1.2 disjoint'

section TwoPixels

/-- Two neighbouring pixels as one rectangle, and as two. -/
def uncut : List EvdiRect := [⟨0, 0, 2, 1⟩]

def cut : List EvdiRect := [⟨0, 0, 1, 1⟩, ⟨1, 0, 2, 1⟩]

theorem cut_pairwise_disjoint :
    cut.Pairwise fun r r' => Disjoint r.pixels r'.pixels := by
  refine List.pairwise_pair.mpr (Set.disjoint_left.mpr fun p h h' => ?_)
  simp only [EvdiRect.mem_pixels] at h h'
  omega

theorem cover_cut : cover cut = cover uncut := by
  ext p
  simp only [cover, cut, uncut, List.mem_cons, List.not_mem_nil, or_false,
    exists_eq_or_imp, exists_eq_left, EvdiRect.mem_pixels, Set.mem_ofPred_eq]
  omega

/-- One buffer black, one blue at the pixels `x < n` of the first row. -/
def blueUpTo (n : ℤ) : Bool → ℤ → Word := fun b i => if b ∧ i < n then 0xff else 0

/-- A client that has blitted the black buffer. -/
def blittedBlack : Client Bool :=
  { (Client.connected [3] : Client Bool) with lastBuf := some false }

/-- When only the first pixel differs, the cut makes no difference. -/
theorem commands_of_cuts_first_pixel :
    sentSet (blueUpTo 1) blittedBlack true 800 cut =
        changes (blueUpTo 1) false true 800 (cover cut) ∧
      sentSet (blueUpTo 1) blittedBlack true 800 uncut =
        changes (blueUpTo 1) false true 800 (cover cut) := by
  refine (commands_of_cuts_iff (blueUpTo 1) blittedBlack false true 800 cut uncut
    (by decide) rfl (by decide) cut_pairwise_disjoint (List.pairwise_singleton _ _)
    cover_cut).mpr ⟨?_, ?_⟩
  · intro r hr p hp
    obtain rfl : r = ⟨1, 0, 2, 1⟩ := List.mem_singleton.mp hr
    simp only [EvdiRect.mem_pixels] at hp
    obtain rfl : p = (1, 0) := by
      ext
      · show p.1 = 1
        omega
      · show p.2 = 0
        omega
    rfl
  · intro r hr
    exact absurd hr List.not_mem_nil

/-- When both differ, the second rectangle of the cut is not sent. -/
theorem cut_loses_second_pixel :
    cut.Pairwise (fun r r' => Disjoint r.pixels r'.pixels) ∧
    uncut.Pairwise (fun r r' => Disjoint r.pixels r'.pixels) ∧
    cover cut = cover uncut ∧
    ¬ (sentSet (blueUpTo 2) blittedBlack true 800 cut =
        changes (blueUpTo 2) false true 800 (cover cut) ∧
      sentSet (blueUpTo 2) blittedBlack true 800 uncut =
        changes (blueUpTo 2) false true 800 (cover cut)) := by
  refine ⟨cut_pairwise_disjoint, List.pairwise_singleton _ _, cover_cut, ?_⟩
  rintro ⟨sent, -⟩
  have second : (⟨1, 0, 0, 0, 0xff⟩ : Px) ∈
      sentSet (blueUpTo 2) blittedBlack true 800 cut := by
    rw [sent]
    exact ⟨(1, 0), ⟨⟨1, 0, 2, 1⟩, by decide, by decide⟩, by decide, by decide⟩
  have list : commandsOf (blitRects (blueUpTo 2) true 800 pfNoBgcolor blittedBlack
      cut).calls = [⟨0, 0, 0, 0, 0xff⟩] := by decide
  rw [sentSet, Set.mem_ofPred_eq, list] at second
  exact absurd second (by decide)

end TwoPixels

end Kernelflut.Loop
