import Kernelflut.Pixelflut.Visits

/-!
# The two framebuffers of `evdi.c`

`evdi_get` hands out the framebuffers in turn: it toggles its static `fbid`,
waits until that buffer can be updated, lets evdi grab pixels into it and
returns its address with the dirty rectangles.  This module has the part the
blitting depends on — which buffer, what is in it, which rectangles; the wait
is the subject of `Kernelflut.Evdi.Wait`.

A `Grab` is what evdi did: what became of the contents of the buffer it was
asked to fill, and which rectangles it reported.  `refresh` is the grab that
overwrites exactly one rectangle with the desktop, and `failedGrab` one that
fails: `evdi_grab_pixels` then reports no rectangles, but the driver may have
copied some of them, or parts, before it gave up.
-/

namespace Kernelflut.Evdi

open Kernelflut.Pixelflut

/-- Buffer ids, `0` and `1` (`#define FRAMEBUFFERS 2`). -/
abbrev FbId := Fin 2

/-- `fbid ^= 1`. -/
def toggle (fbid : FbId) : FbId := fbid ^^^ 1

theorem toggle_ne : ∀ fbid : FbId, toggle fbid ≠ fbid := by decide

@[simp] theorem toggle_toggle : ∀ fbid : FbId, toggle (toggle fbid) = fbid := by
  decide

theorem toggle_involutive : Function.Involutive toggle := toggle_toggle

/-- What one `evdi_grab_pixels` did to the buffer it filled, and the dirty
rectangles it reported. -/
structure Grab where
  write : (ℤ → Word) → ℤ → Word
  rects : List EvdiRect

/-- `struct evdi_update`: the address of the buffer and the rectangles. -/
structure EvdiUpdate where
  fb : FbId
  rects : List EvdiRect

/-- The statics of `evdi.c` that outlive a call: the `fbid` of `evdi_get`, and
the contents of the framebuffers. -/
structure Buffers where
  fbid : FbId
  bufs : FbId → ℤ → Word

/-- After `evdi_setup`: the buffers come zeroed from `calloc`. -/
def Buffers.start : Buffers where
  fbid := 0
  bufs := fun _ _ => 0

/-- `evdi_get` when it returns 0. -/
def evdiGet (e : Buffers) (grab : Grab) : Buffers × EvdiUpdate :=
  let fbid := toggle e.fbid
  ({ fbid, bufs := Function.update e.bufs fbid (grab.write (e.bufs fbid)) },
   { fb := fbid, rects := grab.rects })

@[simp] theorem evdiGet_fbid (e : Buffers) (grab : Grab) :
    (evdiGet e grab).1.fbid = toggle e.fbid := rfl

@[simp] theorem evdiGet_fb (e : Buffers) (grab : Grab) :
    (evdiGet e grab).2.fb = toggle e.fbid := rfl

@[simp] theorem evdiGet_bufs_self (e : Buffers) (grab : Grab) :
    (evdiGet e grab).1.bufs (toggle e.fbid) =
      grab.write (e.bufs (toggle e.fbid)) := by
  simp [evdiGet]

/-- The buffer handed out last is not written. -/
@[simp] theorem evdiGet_bufs_other (e : Buffers) (grab : Grab) :
    (evdiGet e grab).1.bufs e.fbid = e.bufs e.fbid := by
  simp [evdiGet, Function.update_of_ne (toggle_ne e.fbid).symm]

/-! ## The grabs -/

/-- Overwrite exactly the pixels of `rect` with the desktop's, in a frame of
the given width, and leave the rest of the buffer as it was. -/
def refresh (width : ℤ) (rect : EvdiRect) (desktop old : ℤ → Word) : ℤ → Word :=
  fun i => if (i % width, i / width) ∈ rect.pixels then desktop i else old i

/-- Overwrite what was copied. -/
def patch (copied : ℤ → Option Word) (old : ℤ → Word) : ℤ → Word :=
  fun i => (copied i).getD (old i)

@[simp] theorem patch_none (old : ℤ → Word) : patch (fun _ => none) old = old := rfl

/-- A grab that fails: no rectangles, and the buffer has what was copied before
the failure. -/
def failedGrab (copied : ℤ → Option Word) : Grab where
  write := patch copied
  rects := []

/-- The flat index of a pixel inside the frame gives the pixel back. -/
theorem index_emod_ediv {width : ℤ} {p : Pos} (nonneg : 0 ≤ p.1)
    (lt : p.1 < width) :
    (p.2 * width + p.1) % width = p.1 ∧ (p.2 * width + p.1) / width = p.2 := by
  have pos : 0 < width := by omega
  constructor
  · rw [add_comm, Int.add_mul_emod_self_right, Int.emod_eq_of_lt nonneg lt]
  · rw [add_comm, Int.add_mul_ediv_right _ _ pos.ne',
      Int.ediv_eq_zero_of_lt nonneg lt, zero_add]

/-- Inside the rectangle the buffer holds the desktop after a refresh. -/
theorem refresh_of_mem {width : ℤ} {rect : EvdiRect} (x1_nonneg : 0 ≤ rect.x1)
    (x2_le_width : rect.x2 ≤ width) {desktop old : ℤ → Word} {p : Pos}
    (hp : p ∈ rect.pixels) :
    refresh width rect desktop old (p.2 * width + p.1) =
      desktop (p.2 * width + p.1) := by
  have ⟨⟨left, right⟩, _⟩ := hp
  obtain ⟨hx, hy⟩ := index_emod_ediv (p := p)
    (le_trans x1_nonneg left) (lt_of_lt_of_le right x2_le_width)
  rw [refresh, hx, hy]
  exact if_pos hp

end Kernelflut.Evdi
