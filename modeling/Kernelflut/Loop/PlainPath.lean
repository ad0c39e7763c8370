import Kernelflut.Loop.OneRectangle

/-!
# Skipping unchanged pixels against the plain path

The plain path would send every pixel of every dirty rectangle, so that the
server shows the desktop wherever something was dirty.  `pf_set_buf` leaves out
the pixels that are equal in the buffer blitted last.  That is harmless as long
as this buffer holds what the server shows; but evdi refreshes only the dirty
rectangle of the buffer it fills, and the two buffers take turns, so at a pixel
outside the previous update's rectangle the buffer blitted last may hold a
frame the server has long left behind.

`dirty_updates_iff` is the exact condition under which a whole run is as good
as the plain path: no update's rectangle has a pixel whose new word is the one
the other buffer still holds there, unless the server shows that colour
already.
-/

namespace Kernelflut.Loop

open Kernelflut.Pixelflut Kernelflut.Evdi PartialStep Overwrites

variable {width height : ℤ}

/-- An update with one dirty rectangle inside the frame, and the desktop at
that moment. -/
structure DirtyUpdate (width height : ℤ) where
  rect : EvdiRect
  desktop : ℤ → Word
  inside : rect.Inside width height

namespace DirtyUpdate

/-- evdi overwrites exactly the dirty rectangle. -/
def grab (u : DirtyUpdate width height) : Grab where
  write := refresh width u.rect u.desktop
  rects := [u.rect]

theorem grab_rects (u : DirtyUpdate width height) : u.grab.rects = [u.rect] := rfl

/-- The desktop as a picture. -/
def frame (u : DirtyUpdate width height) : Canvas := picture u.desktop width

section Grabbed

variable (u : DirtyUpdate width height) (e : Buffers) {p : Pos} (hp : p ∈ u.rect.pixels)
include hp

/-- The buffer `evdi_get` hands out holds the desktop on the rectangle. -/
theorem grabbed_word :
    (evdiGet e u.grab).1.bufs (toggle e.fbid) (p.2 * width + p.1) =
      u.desktop (p.2 * width + p.1) := by
  rw [evdiGet_bufs_self]
  exact refresh_of_mem u.inside.x1_nonneg u.inside.x2_le_width hp

theorem grabbed_picture :
    picture ((evdiGet e u.grab).1.bufs (toggle e.fbid)) width p = u.frame p :=
  congrArg colourOf (u.grabbed_word e hp)

end Grabbed

/-- Every pixel of the rectangle is sent. -/
def paint (canvas : Canvas) (u : DirtyUpdate width height) : Canvas :=
  fun p => if p ∈ u.rect.pixels then u.frame p else canvas p

end DirtyUpdate

/-- **The plain path**: what the server shows when every pixel of every
rectangle is sent. -/
def plainPath (canvas : Canvas) (us : List (DirtyUpdate width height)) : Canvas :=
  us.foldl DirtyUpdate.paint canvas

theorem plainPath_concat (canvas : Canvas) (us : List (DirtyUpdate width height))
    (u : DirtyUpdate width height) :
    plainPath canvas (us ++ [u]) = u.paint (plainPath canvas us) := by
  simp [plainPath, List.foldl_append]

/-- A canvas that shows the desktop on the rectangle and is otherwise as it was
is the painted one. -/
theorem eq_paint_iff {canvas canvas' : Canvas} {u : DirtyUpdate width height}
    (frame : ∀ p ∉ u.rect.pixels, canvas' p = canvas p) :
    canvas' = u.paint canvas ↔ ∀ p ∈ u.rect.pixels, canvas' p = u.frame p := by
  constructor
  · rintro rfl p hp
    exact if_pos hp
  · intro shows
    funext p
    unfold DirtyUpdate.paint
    split
    · next hp => exact shows p hp
    · next hp => exact frame p hp

/-! ## Runs -/

/-- One turn of the loop on such an update, without a background colour. -/
def dirtyStep (width height : ℤ) (s : Sys) (u : DirtyUpdate width height) :
    Option Sys :=
  updateStep width pfNoBgcolor s u.grab

/-- Once the server has consumed everything, it shows the desktop on the
update's rectangle, and altogether what the plain path would have shown. -/
def Repainted (canvas : Canvas) (before : List (DirtyUpdate width height))
    (u : DirtyUpdate width height) (s : Sys) : Prop :=
  ∀ received, s.Consumes received →
    (∀ p ∈ u.rect.pixels, canvasAfter canvas received p = u.frame p) ∧
      canvasAfter canvas received = plainPath canvas (before ++ [u])

/-- **The condition.**  From the second update on: a pixel of the rectangle
that already has its new word in the other buffer has its new colour on the
server too. -/
def NotStale (canvas : Canvas) (before : List (DirtyUpdate width height)) (s : Sys)
    (u : DirtyUpdate width height) : Prop :=
  before ≠ [] → ∀ p ∈ u.rect.pixels,
    s.buffers.bufs s.buffers.fbid (p.2 * width + p.1) =
        u.desktop (p.2 * width + p.1) →
      plainPath canvas before p = u.frame p

/-- What a run keeps as long as it is as good as the plain path. -/
structure OnPlainPath (canvas : Canvas) (before : List (DirtyUpdate width height))
    (s : Sys) : Prop where
  one : s.OneConnection
  shows : s.canvas canvas = plainPath canvas before
  last : s.returned = none →
    s.client.lastBuf = if before = [] then none else some s.buffers.fbid

theorem onPlainPath_start (canvas : Canvas) (fd : ℕ) (ptActive : Bool) :
    OnPlainPath canvas ([] : List (DirtyUpdate width height))
      (Sys.oneSocket fd ptActive) where
  one := oneConnection_oneSocket fd ptActive
  shows := rfl
  last := fun _ => rfl

section Step

variable {canvas : Canvas} {before : List (DirtyUpdate width height)} {s s' : Sys}
  {u : DirtyUpdate width height}

/-- Under the invariant, what the turn skips is shown exactly when nothing is
stale. -/
theorem skipsTruly_iff_notStale (inv : OnPlainPath canvas before s)
    (running : s.returned = none) :
    SkipsTruly (evdiGet s.buffers u.grab).1.bufs s.client.lastBuf
        (toggle s.buffers.fbid) width u.rect (s.canvas canvas) ↔
      NotStale canvas before s u := by
  unfold SkipsTruly NotStale
  rw [inv.last running, inv.shows]
  rcases eq_or_ne before [] with first | later
  · -- There is nothing to compare with, and everything is sent.
    simp [first]
  · rw [if_neg later]
    simp only [Option.some.injEq, forall_eq', evdiGet_bufs_other, ne_eq, later,
      not_false_eq_true, forall_const]
    refine forall₂_congr fun p hp => ?_
    rw [u.grabbed_word s.buffers hp, u.grabbed_picture s.buffers hp]

/-- **One turn**: it repaints exactly when nothing it compares with is stale. -/
theorem repainted_iff_notStale (inv : OnPlainPath canvas before s)
    (h : dirtyStep width height s u = some s') :
    Repainted canvas before u s' ↔ NotStale canvas before s u := by
  have one := oneConnection_updateStep u.grab_rects inv.one h
  obtain ⟨running, -⟩ := updateStep_eq_some.mp h
  obtain ⟨shows, frame⟩ :=
    updateStep_oneRect canvas u.grab_rects u.inside.y1_nonneg inv.one.1 h
  have onRect : (∀ p ∈ u.rect.pixels, s'.canvas canvas p = u.frame p) ↔
      NotStale canvas before s u := by
    rw [← skipsTruly_iff_notStale inv running, ← shows]
    exact forall₂_congr fun p hp => by rw [u.grabbed_picture s.buffers hp]
  rw [← onRect]
  constructor
  · intro repainted p hp
    rw [← canvasAfter_sendsOf]
    exact (repainted _ s'.consumes_sendsOf).1 p hp
  · intro shown received consumes
    rw [canvasAfter_of_oneConnection one consumes, plainPath_concat, ← inv.shows]
    exact ⟨shown, (eq_paint_iff frame).mpr shown⟩

/-- A turn without stale pixels keeps to the plain path. -/
theorem OnPlainPath.step (inv : OnPlainPath canvas before s)
    (h : dirtyStep width height s u = some s') (ok : NotStale canvas before s u) :
    OnPlainPath canvas (before ++ [u]) s' := by
  have one := oneConnection_updateStep u.grab_rects inv.one h
  obtain ⟨-, buffers, -, -, last⟩ := updateStep_singleton u.grab_rects h
  refine ⟨one, ?_, ?_⟩
  · have repainted := (repainted_iff_notStale inv h).mpr ok
    rw [← canvasAfter_sendsOf]
    exact (repainted _ s'.consumes_sendsOf).2
  · intro running
    rw [last running, buffers, evdiGet_fbid]
    simp

end Step

/-- **Runs of single-rectangle updates.**  Over one connection and without a
background colour, the server shows after every update what the plain path
would have made it show exactly when no update meets a stale pixel. -/
theorem dirty_updates_iff (canvas : Canvas) (fd : ℕ) (ptActive : Bool)
    (us : List (DirtyUpdate width height)) :
    EachStep (dirtyStep width height)
        (fun before _ u s' => Repainted canvas before u s')
        (Sys.oneSocket fd ptActive) us ↔
      EachStep (dirtyStep width height)
        (fun before s u _ => NotStale canvas before s u)
        (Sys.oneSocket fd ptActive) us :=
  eachStep_iff_of_decided (OnPlainPath canvas)
    (onPlainPath_start canvas fd ptActive)
    (fun _ inv h => repainted_iff_notStale inv h)
    (fun _ inv h ok => inv.step h ok)

/-- A pixel that turns blue, an update elsewhere, and the pixel back to black:
the other buffer still has the black it was allocated with. -/
def blackAgain : List (DirtyUpdate 800 600) :=
  [{ rect := ⟨0, 0, 1, 1⟩
     desktop := fun i => if i = 0 then 0xff else 0
     inside := by constructor <;> decide },
   { rect := ⟨1, 0, 2, 1⟩
     desktop := fun i => if i = 0 ∨ i = 1 then 0xff else 0
     inside := by constructor <;> decide },
   { rect := ⟨0, 0, 1, 1⟩
     desktop := fun i => if i = 1 then 0xff else 0
     inside := by constructor <;> decide }]

/-- The third update of `blackAgain` sends nothing: the pixel stays blue. -/
theorem not_repainted_blackAgain :
    ¬ ∀ (canvas : Canvas) (us : List (DirtyUpdate 800 600)),
      EachStep (dirtyStep 800 600)
        (fun before _ u s' => Repainted canvas before u s')
        (Sys.oneSocket 3 false) us := by
  intro claim
  obtain ⟨s, hrun⟩ : ∃ s, run (dirtyStep 800 600) (Sys.oneSocket 3 false)
      blackAgain = some s := ⟨_, rfl⟩
  have sent : commandsOf s.calls = [⟨0, 0, 0, 0, 0xff⟩, ⟨1, 0, 0, 0, 0xff⟩] := by
    have := congrArg (Option.map fun s => commandsOf s.calls) hrun
    exact Option.some.inj (this.symm.trans (by decide))
  obtain ⟨-, -, -, repainted⟩ := EachStep.last (blackAgain.take 2)
    (claim (fun _ => 0) blackAgain) hrun
  have shown := (repainted _ s.consumes_sendsOf).1 (0, 0) (by decide)
  rw [canvasAfter, map_snd_sendsOf, sent] at shown
  exact absurd shown (by decide)

end Kernelflut.Loop
