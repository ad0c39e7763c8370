import Kernelflut.Driver.Damage
import Kernelflut.Loop.FailedGrabs

/-!
# From the desktop to the canvas

The whole way of a pixel: someone draws it into a framebuffer, the driver is told, a
grab copies it into one of the two buffers of `evdi.c`, `pf_set_buf` sends it unless it
was sent before, and the server shows it.

`Display` puts the driver of `Kernelflut.Driver.Damage` and the loop of
`Kernelflut.Loop.Iteration` together.  They meet in the grab: what it copied is in the
buffer that `evdi_get` returns, and the rectangles it reported are the ones that `loop`
goes through.  The desktop goes on while the grab copies.

`loop` only compares an update with the last one right when both are of the same
rectangle.  So it is right when all of them are of the whole frame, and that they are
when the desktop has exchanged its framebuffer since the last grab: the driver marks the
whole frame then, and merges all other damage with it.  `canvas_of_run` says so for any
run, with one connection and without a background colour; `canvas_of_flip` says that an
exchange is shown.

When there is something to grab is the subject of `Kernelflut.LibEvdi.Requests`.
-/

namespace Kernelflut

open Pixelflut Driver PartialStep Loop
open Evdi (evdiGet evdiGet_bufs_other evdiGet_bufs_self evdiGet_fbid failedGrab toggle)

/-- The desktop with its driver, and `kernelflut` in its loop. -/
structure Display where
  system : System
  program : Sys

/-- What the client of the driver does. -/
def Driver.Action.isClient : Action → Bool
  | .grab _ => true
  | .deliver => true
  | .fail => true
  | _ => false

inductive DisplayInput where
  /-- The desktop draws, or the driver does something. -/
  | desktop (action : Action)
  /-- `evdi_get` calls `evdi_grab_pixels`. -/
  | grab
  /-- The ioctl returns 0, and `loop` goes through the rectangles. -/
  | deliver
  /-- The ioctl fails. -/
  | fail

/-- The buffer after a grab, and the rectangles that the library reports. -/
def Driver.Grab.toEvdi (width : ℕ) (g : Driver.Grab) (rects : List DrmClipRect) :
    Evdi.Grab where
  write := Evdi.patch fun i => g.copied (i % width, i / width)
  rects := rects.map DrmClipRect.toEvdiRect

/-- What `evdi_grab_pixels` asks for. -/
def grabpixCmd (width height : ℕ) : EvdiDevice.Grabpix :=
  ⟨EvdiDevice.grabpixModeDirty, width, height, maxDirts⟩

/-- One step, with buffers of this size. -/
def displayStep (params : Params) (width height : ℕ) (bgcolor : Word) (s : Display) :
    DisplayInput → Option Display
  | .desktop action =>
      if action.isClient then none
      else (systemStep params s.system action).map fun system => { s with system }
  | .grab =>
      if s.program.returned ≠ none then none
      else
        (systemStep params s.system (.grab (grabpixCmd width height))).bind fun system =>
          match system.grab with
          | some _ => some { s with system }
          | none =>
              -- The ioctl has failed before it copied anything.
              (updateStep width bgcolor s.program (failedGrab fun _ => none)).map
                fun program => { system, program }
  | .deliver =>
      s.system.grab.bind fun g =>
        (systemStep params s.system .deliver).bind fun system =>
          (updateStep width bgcolor s.program (g.toEvdi width g.reported)).map
            fun program => { system, program }
  | .fail =>
      s.system.grab.bind fun g =>
        (systemStep params s.system .fail).bind fun system =>
          (updateStep width bgcolor s.program (g.toEvdi width [])).map
            fun program => { system, program }

/-- Nothing is scanned out, `loop` is entered with one connection, and the server shows
something. -/
def Display.start (cursor : EvdiCursor) (memory : EvdiFramebuffer → Pos → Word) (fd : ℕ)
    (canvas : Canvas) : Display where
  system := .start cursor memory fun p => (canvas p).setWidth 32
  program := Sys.oneSocket fd false

/-- The condition: framebuffers are of this size, a grab has the whole frame to take,
and it comes to its end with all of the cursor. -/
def Display.Paged (width height : ℕ) (s : Display) : DisplayInput → Prop
  | .desktop action => action.OfMode width height ∧ action ≠ .skipCursor
  | .grab => s.system.scanoutFb ≠ none ∧
      wholeFrame width height ∈ s.system.driver.device.painter.dirtyRects
  | .deliver => True
  | .fail => False

/-! ## The steps of the desktop -/

section Steps

variable {params : Params} {s t : System} {action : Action}

/-- Nothing that the client would notice, and the grab under way stays the same. -/
theorem grab_of_systemStep (other : action.isClient = false)
    (step : systemStep params s action = some t) :
    t.picture = s.picture ∧
      ∀ g', t.grab = some g' → ∃ g, s.grab = some g ∧ g'.reported = g.reported := by
  rcases systemStep_cases step with ⟨_, _, _, rfl, -⟩ | ⟨cmd, _, _, rfl, -, -⟩ |
    ⟨g, _, _, grabbing, rfl, same, -⟩ | ⟨_, _, _, _, -, -, -, rfl | ⟨rfl, -⟩⟩
  · exact ⟨rfl, fun g hg => ⟨g, hg, rfl⟩⟩
  · cases other
  · refine ⟨rfl, ?_⟩
    rintro _ ⟨⟩
    exact ⟨g, grabbing, same⟩
  · cases other
  · cases other

/-- Only a grab that fails loses something, or one without its cursor. -/
theorem lost_of_systemStep (survives : action ≠ .fail) (whole : action ≠ .skipCursor)
    (step : systemStep params s action = some t) : t.lost ⊆ s.lost := by
  rcases systemStep_cases step with ⟨_, _, _, rfl, -⟩ | ⟨_, _, _, -, -, rfl⟩ |
    ⟨_, _, _, -, rfl, -, kept⟩ | ⟨_, _, _, _, -, -, rfl, failed | ⟨-, rfl⟩⟩
  · exact subset_rfl
  · exact subset_rfl
  · exact kept whole
  · exact absurd failed survives
  · exact subset_rfl

/-- What a grab delivers when it has copied all that it reports. -/
theorem picture_of_deliver (inv : SystemInv s) {g : Driver.Grab}
    (grabbing : s.grab = some g) (step : systemStep params s .deliver = some t) :
    t.grab = none ∧ ∀ p ∈ g.area, g.copied p = some (t.picture p) := by
  simp only [systemStep, grabbing, Option.bind_some] at step
  split_ifs at step with complete
  obtain ⟨driver, -, rfl⟩ := Option.map_eq_some_iff.mp step
  obtain ⟨rects, row⟩ :=
    inv.composing g grabbing (by rw [complete]; exact Option.some_ne_none _)
  have nothing : g.todo = ∅ := by
    simp [Grab.todo, rects, row, dirtyArea, Merging.cover_nil]
  refine ⟨rfl, fun p hp => ?_⟩
  obtain ⟨word, copied, -⟩ := inv.current g grabbing p hp (nothing ▸ Set.notMem_empty p)
  have reported : p ∈ dirtyArea g.reported := hp
  simp [copied, reported]

end Steps

/-! ## What a run keeps -/

/-- The server shows the picture of the client, whose last buffer holds it. -/
structure Display.Shows (params : Params) (width height : ℕ) (canvas : Canvas)
    (s : Display) : Prop where
  faithful : (s.system.abstract params).Faithful
  inv : SystemInv s.system
  mode : FixedMode width height s.system.driver
  running : s.program.Running
  one : s.program.OneConnection
  picture : ∀ p ∈ (wholeFrame width height).pixels,
    s.program.canvas canvas p = colourOf (s.system.picture p)
  lastBuf : ∀ last, s.program.client.lastBuf = some last → last = s.program.buffers.fbid ∧
    ∀ p ∈ (wholeFrame width height).pixels,
      s.program.buffers.bufs last (p.2 * width + p.1) = s.system.picture p
  grabbing : ∀ g, s.system.grab = some g → g.reported = [wholeFrame width height]
  lost : s.system.lost = ∅

section Runs

variable {params : Params} {width height : ℕ} {canvas : Canvas} {s t : Display}

/-- Nothing is shown, and nothing was sent. -/
theorem Display.Shows.start (cursor : EvdiCursor) (memory : EvdiFramebuffer → Pos → Word)
    (fd : ℕ) (canvas : Canvas) :
    (Display.start cursor memory fd canvas).Shows params width height canvas where
  faithful := fun p hp => absurd (Or.inl (Or.inl (Or.inl (Set.mem_univ p)))) hp
  inv := .start ..
  mode := ⟨Nat.zero_le _, nofun, nofun⟩
  running := running_oneSocket fd
  one := oneConnection_oneSocket fd false
  picture := fun p _ => by
    show canvas p = ((canvas p).setWidth 32).setWidth 24
    rw [BitVec.setWidth_setWidth_of_le _ (by omega), BitVec.setWidth_eq]
  lastBuf := nofun
  grabbing := nofun
  lost := rfl

/-- The desktop's steps. -/
theorem Display.Shows.desktop (shows : s.Shows params width height canvas) {action : Action}
    (paged : s.Paged width height (.desktop action))
    (step : displayStep params width height pfNoBgcolor s (.desktop action) = some t) :
    t.Shows params width height canvas := by
  rw [displayStep] at step
  split_ifs at step with other
  obtain ⟨system, stepped, rfl⟩ := Option.map_eq_some_iff.mp step
  obtain ⟨steps, inv⟩ := systemStep_refines shows.inv stepped
  obtain ⟨picture, reported⟩ := grab_of_systemStep (Bool.eq_false_iff.mpr other) stepped
  refine { shows with
    faithful := steps.faithful shows.faithful
    inv
    mode := fixedMode_of_systemStep shows.mode paged.1 stepped
    picture := by rw [picture]; exact shows.picture
    lastBuf := by rw [picture]; exact shows.lastBuf
    grabbing := ?_
    lost := ?_ }
  · intro g' hg'
    obtain ⟨g, hg, same⟩ := reported g' hg'
    rw [same]
    exact shows.grabbing g hg
  · refine Set.subset_eq_empty (lost_of_systemStep ?_ paged.2 stepped) shows.lost
    rintro rfl
    exact other rfl

/-- The whole frame is one rectangle, whatever else was marked. -/
theorem grabpix_wholeFrame {evdi : EvdiDevice} {efb : EvdiFramebuffer}
    (scanout : evdi.painter.scanoutFb = some efb)
    (within : ∀ r ∈ evdi.painter.dirtyRects, r.Within width height)
    (whole : wholeFrame width height ∈ evdi.painter.dirtyRects) :
    ∃ device, evdi.grabpix (grabpixCmd width height) =
      (device, .ok (efb, [wholeFrame width height])) := by
  refine ⟨{ evdi with painter.dirtyRects := [] }.getFb (some efb), ?_⟩
  rw [EvdiDevice.grabpix, mergeDirtyRects_wholeFrame within whole, scanout]
  rfl

/-- A grab of the whole frame. -/
theorem Display.Shows.grab (shows : s.Shows params width height canvas)
    (paged : s.Paged width height .grab)
    (step : displayStep params width height pfNoBgcolor s .grab = some t) :
    t.Shows params width height canvas := by
  obtain ⟨scanned, whole⟩ := paged
  obtain ⟨efb, scanout⟩ := Option.ne_none_iff_exists'.mp scanned
  obtain ⟨device, taken⟩ := grabpix_wholeFrame scanout shows.mode.within whole
  rw [displayStep, if_neg (not_not.mpr shows.running.returned),
    Option.bind_eq_some_iff] at step
  obtain ⟨system, stepped, step⟩ := step
  obtain ⟨steps, inv⟩ := systemStep_refines shows.inv stepped
  have ofMode : Action.OfMode width height (.grab (grabpixCmd width height)) := trivial
  have mode := fixedMode_of_systemStep shows.mode ofMode stepped
  have lost := Set.subset_eq_empty
    (lost_of_systemStep (by rintro ⟨⟩) (by rintro ⟨⟩) stepped) shows.lost
  simp only [systemStep, taken] at stepped
  split at stepped
  · cases stepped
  · cases stepped
    cases step
    refine { shows with
      faithful := steps.faithful shows.faithful, inv, mode, lost, grabbing := ?_ }
    intro g hg
    cases hg
    rfl

/-- **An update of the whole frame** is shown: what it skips is shown already. -/
theorem Display.Shows.deliver (shows : s.Shows params width height canvas)
    (step : displayStep params width height pfNoBgcolor s .deliver = some t) :
    t.Shows params width height canvas := by
  simp only [displayStep, Option.bind_eq_some_iff] at step
  obtain ⟨g, grabbing, system, stepped, step⟩ := step
  obtain ⟨program, updated, rfl⟩ := Option.map_eq_some_iff.mp step
  obtain ⟨steps, inv⟩ := systemStep_refines shows.inv stepped
  have ofMode : Action.OfMode width height .deliver := trivial
  have mode := fixedMode_of_systemStep shows.mode ofMode stepped
  have reported := shows.grabbing g grabbing
  obtain ⟨idle, copied⟩ := picture_of_deliver shows.inv grabbing stepped
  have covered : ∀ p ∈ (wholeFrame width height).pixels, p ∈ g.area := by
    intro p hp
    rw [Grab.area, reported]
    exact ⟨_, List.mem_singleton_self _, hp⟩
  have running : program.Running := by
    obtain ⟨program', updated', running⟩ := shows.running.updateStep width pfNoBgcolor
      (g.toEvdi width g.reported)
    exact Option.some.inj (updated'.symm.trans updated) ▸ running
  have single : (g.toEvdi width g.reported).rects =
      [(wholeFrame width height).toEvdiRect] := by
    rw [reported]
    rfl
  obtain ⟨-, buffers, -, -, lastBuf⟩ := updateStep_singleton single updated
  obtain ⟨shown, -⟩ := updateStep_oneRect canvas single le_rfl shows.one.1 updated
  let e := evdiGet s.program.buffers (g.toEvdi width g.reported)
  have word : ∀ p ∈ (wholeFrame width height).pixels,
      e.1.bufs (toggle s.program.buffers.fbid) (p.2 * width + p.1) = system.picture p := by
    intro p hp
    have inside := DrmClipRect.mem_pixels.mp hp
    have left : 0 ≤ p.1 := inside.1.1
    have right : p.1 < (width : ℤ) := inside.1.2
    obtain ⟨column, row⟩ := Evdi.index_emod_ediv left right
    simp only [e, evdiGet_bufs_self, Grab.toEvdi, Evdi.patch, column, row,
      copied p (covered p hp), Option.getD_some]
  refine
    { faithful := steps.faithful shows.faithful
      inv
      mode
      running
      one := oneConnection_updateStep single shows.one updated
      picture := ?_
      lastBuf := ?_
      grabbing := by simp [idle]
      lost := Set.subset_eq_empty
        (lost_of_systemStep (by rintro ⟨⟩) (by rintro ⟨⟩) stepped) shows.lost }
  · intro p hp
    refine (shown.mpr ?_ p hp).trans (congrArg colourOf (word p hp))
    intro q hq last hlast same
    obtain ⟨rfl, holds⟩ := shows.lastBuf last hlast
    rw [evdiGet_bufs_other, holds q hq] at same
    rw [shows.picture q hq, same]
    rfl
  · intro last hlast
    rw [lastBuf running.returned] at hlast
    cases hlast
    rw [buffers]
    exact ⟨(evdiGet_fbid ..).symm, word⟩

/-- One case per input. -/
theorem Display.Shows.step {input : DisplayInput}
    (shows : s.Shows params width height canvas) (paged : s.Paged width height input)
    (step : displayStep params width height pfNoBgcolor s input = some t) :
    t.Shows params width height canvas := by
  cases input with
  | desktop action => exact shows.desktop paged step
  | grab => exact shows.grab paged step
  | deliver => exact shows.deliver step
  | fail => exact paged.elim

/-- **All of a run.** -/
theorem Display.Shows.run {inputs : List DisplayInput}
    (shows : s.Shows params width height canvas)
    (paged : EachStep (displayStep params width height pfNoBgcolor)
      (fun _ s input _ => s.Paged width height input) s inputs)
    (h : run (displayStep params width height pfNoBgcolor) s inputs = some t) :
    t.Shows params width height canvas :=
  inv_of_eachStep (fun _ s => s.Shows params width height canvas) shows
    (fun _ shows step paged => shows.step paged step) paged (List.append_nil inputs).symm h

/-- With one connection there is one canvas. -/
theorem Display.Shows.canvasAfter (shows : s.Shows params width height canvas)
    {received : List (ℕ × Px)} (consumed : s.program.Consumes received) {p : Pos}
    (inFrame : p ∈ (wholeFrame width height).pixels) :
    canvasAfter canvas received p = colourOf (s.system.picture p) := by
  rw [canvasAfter_of_oneConnection shows.one consumed, shows.picture p inFrame]

/-! ## A page flip -/

/-- What the desktop does, while the program waits or copies. -/
theorem run_desktop {bgcolor : Word} {actions : List Action} {system : System}
    (others : ∀ action ∈ actions, action.isClient = false)
    (h : run (systemStep params) s.system actions = some system) :
    run (displayStep params width height bgcolor) s (actions.map .desktop) =
      some { s with system } := by
  induction actions generalizing s with
  | nil => cases h; rfl
  | cons action actions ih =>
      rw [run_cons, Option.bind_eq_some_iff] at h
      obtain ⟨system', step, rest⟩ := h
      have other := others action List.mem_cons_self
      rw [List.map_cons, run_cons, displayStep, other, if_neg Bool.false_ne_true, step,
        Option.map_some, Option.bind_some]
      exact ih (s := { s with system := system' })
        (fun a ha => others a (List.mem_cons_of_mem _ ha)) rest

/-- What a grab does when it is left alone is nothing but copying. -/
def copying (width height pixels : ℕ) : List Action :=
  restOfGrab [wholeFrame width height] ++ cursorOfGrab pixels

/-- Its steps are those of the two passes. -/
theorem mem_copying {pixels : ℕ} {action : Action}
    (h : action ∈ copying width height pixels) :
    action = .nextRect ∨ action = .copyPixel ∨ action = .composeCursor ∨
      action = .composePixel := by
  rcases List.mem_append.mp h with h | h
  · obtain ⟨r, -, h⟩ := List.mem_flatMap.mp h
    rcases List.mem_cons.mp h with rfl | h
    · exact Or.inl rfl
    · exact Or.inr (Or.inl (List.eq_of_mem_replicate h))
  · rcases List.mem_cons.mp h with rfl | h
    · exact Or.inr (Or.inr (Or.inl rfl))
    · exact Or.inr (Or.inr (Or.inr (List.eq_of_mem_replicate h)))

/-- A page flip. -/
def flipInputs (efb : EvdiFramebuffer) : List DisplayInput :=
  (Driver.flip efb).map fun input => .desktop (.drive input)

/-- The page flip itself sends nothing. -/
theorem Display.Shows.run_flip (shows : s.Shows params width height canvas)
    {efb : EvdiFramebuffer} (size : efb.width = width ∧ efb.height = height)
    (mode : Admitted width height) :
    ∃ u, PartialStep.run (displayStep params width height pfNoBgcolor) s (flipInputs efb) =
        some u ∧
      u.Shows params width height canvas ∧ s.system.Flipped u.system efb := by
  obtain ⟨rfl, rfl⟩ := size
  obtain ⟨system, flipped, after⟩ :=
    exists_flipped params shows.inv.driver mode shows.mode.within
  have flip : PartialStep.run (displayStep params efb.width efb.height pfNoBgcolor) s
      (((Driver.flip efb).map .drive).map .desktop) = some { s with system } :=
    run_desktop (by simp [Driver.flip, Action.isClient]) flipped
  rw [List.map_map] at flip
  refine ⟨_, flip, shows.run (eachStep_of_forall ?_ s) flip, after⟩
  simp [Driver.flip, Display.Paged, Action.OfMode, DriverInput.OfMode]

/-- A grab of the whole frame with nothing in between, and the turn of the loop. -/
def wholeTurn (width height pixels : ℕ) : List DisplayInput :=
  .grab :: ((copying width height pixels).map .desktop ++ [.deliver])

/-- **A whole turn** shows the frame. -/
theorem Display.Shows.run_wholeTurn (shows : s.Shows params width height canvas)
    (idle : s.system.grab = none) {efb : EvdiFramebuffer}
    (scanout : s.system.scanoutFb = some efb)
    (whole : wholeFrame width height ∈ s.system.driver.device.painter.dirtyRects) :
    ∃ u, PartialStep.run (displayStep params width height pfNoBgcolor) s
        (wholeTurn width height
          (params.composePositions s.system.driver.device.cursor efb).length) = some u ∧
      u.Shows params width height canvas ∧
      s.system.GrabsAll params u.system efb [wholeFrame width height] := by
  obtain ⟨device, taken⟩ := grabpix_wholeFrame scanout shows.mode.within whole
  obtain ⟨rfl, rfl⟩ := shows.mode.scanout efb scanout
  obtain ⟨system, grabbed, all⟩ := run_wholeGrab params idle taken ⟨rfl, rfl⟩
    (List.forall_mem_singleton.mpr (shows.mode.within _ whole))
  let pixels := (params.composePositions s.system.driver.device.cursor efb).length
  rw [wholeGrab, run_cons, Option.bind_eq_some_iff] at grabbed
  obtain ⟨system₁, begun, grabbed⟩ := grabbed
  obtain ⟨system₂, copied, delivered⟩ := run_concat_eq_some.mp grabbed
  obtain ⟨g, grabbing, -⟩ := Option.bind_eq_some_iff.mp delivered
  have started : system₁.grab ≠ none := by
    simp only [systemStep, idle, taken] at begun
    cases begun
    exact Option.some_ne_none _
  -- The three parts of the turn.
  let s₁ : Display := { s with system := system₁ }
  have grab : displayStep params efb.width efb.height pfNoBgcolor s .grab = some s₁ := by
    obtain ⟨g₁, started⟩ := Option.ne_none_iff_exists'.mp started
    rw [displayStep, if_neg (not_not.mpr shows.running.returned)]
    rw [show systemStep params s.system (.grab (grabpixCmd efb.width efb.height)) = _
      from begun, Option.bind_some, started]
  have copy : PartialStep.run (displayStep params efb.width efb.height pfNoBgcolor) s₁
      ((copying efb.width efb.height pixels).map .desktop) =
        some { s₁ with system := system₂ } := by
    refine run_desktop (fun action h => ?_) copied
    rcases mem_copying h with rfl | rfl | rfl | rfl <;> rfl
  obtain ⟨program, updated, -⟩ := shows.running.updateStep efb.width pfNoBgcolor
    (g.toEvdi efb.width g.reported)
  have deliver : displayStep params efb.width efb.height pfNoBgcolor
      { s₁ with system := system₂ } .deliver = some ⟨system, program⟩ := by
    simp only [displayStep, grabbing, delivered, Option.bind_some, s₁, updated,
      Option.map_some]
  have shows₁ := shows.grab ⟨by simp [scanout], whole⟩ grab
  have shows₂ := shows₁.run (eachStep_of_forall (fun input h _ s _ => by
    obtain ⟨action, hcopy, rfl⟩ := List.mem_map.mp h
    rcases mem_copying hcopy with rfl | rfl | rfl | rfl <;>
      exact ⟨trivial, by rintro ⟨⟩⟩) s₁) copy
  refine ⟨⟨system, program⟩, ?_, shows₂.deliver deliver, all⟩
  rw [wholeTurn, run_cons, grab, Option.bind_some, run_concat_eq_some]
  exact ⟨_, copy, deliver⟩

/-- **The canvas shows the desktop.**  Whatever is drawn and marked, and however this
interleaves with the copying, as long as each grab has a whole frame to take and comes
to its end: the server shows each pixel as it is on the screen, once its damage was
marked and grabbed and what was sent is consumed. -/
theorem canvas_of_run {cursor : EvdiCursor} {memory : EvdiFramebuffer → Pos → Word} {fd : ℕ}
    {inputs : List DisplayInput}
    (paged : EachStep (displayStep params width height pfNoBgcolor)
      (fun _ s input _ => s.Paged width height input)
        (.start cursor memory fd canvas) inputs)
    (h : run (displayStep params width height pfNoBgcolor) (.start cursor memory fd canvas)
      inputs = some t) {received : List (ℕ × Px)} (consumed : t.program.Consumes received)
    {p : Pos} (inFrame : p ∈ (wholeFrame width height).pixels)
    (settled : p ∉ t.system.unmarked ∪ t.system.dirty ∪ t.system.inFlight) :
    canvasAfter canvas received p = colourOf (t.system.screen params p) := by
  have shows := (Display.Shows.start cursor memory fd canvas).run paged h
  rw [shows.canvasAfter consumed inFrame]
  refine congrArg colourOf (System.picture_eq_screen shows.faithful ?_)
  rw [shows.lost, Set.union_empty]
  exact settled

/-- A desktop of two pixels, of which every byte is 7, behind a white wall. -/
def whiteWall : Display :=
  .start whiteCursor (fun efb => scanoutWord efb (List.replicate 8 7)) 3 fun _ => 0xffffff

/-- The framebuffer is exchanged, and there is time for one turn. -/
theorem canvas_of_run_whiteWall : ∃ u,
    run (displayStep blending 2 1 pfNoBgcolor) whiteWall
        (flipInputs twoPixels ++ wholeTurn 2 1 1) = some u ∧
      ∀ received, u.program.Consumes received →
        canvasAfter (fun _ => 0xffffff) received (1, 0) =
          colourOf (u.system.screen blending (1, 0)) := by
  have shows : whiteWall.Shows blending 2 1 fun _ => 0xffffff := .start ..
  obtain ⟨s, flipped, shows', after⟩ := shows.run_flip
    (show twoPixels.width = 2 ∧ twoPixels.height = 1 from ⟨rfl, rfl⟩) ⟨by decide, by decide⟩
  obtain ⟨u, turned, -, all⟩ :=
    shows'.run_wholeTurn (after.grab.trans rfl) after.scanout after.whole
  have onePixel : (blending.composePositions whiteCursor twoPixels).length = 1 := by decide
  rw [after.cursor, show whiteWall.system.driver.device.cursor = whiteCursor from rfl,
    onePixel] at turned
  have h : run (displayStep blending 2 1 pfNoBgcolor) whiteWall
      (flipInputs twoPixels ++ wholeTurn 2 1 1) = some u := by
    rw [run_append, flipped]
    exact turned
  have inFrame : ((1, 0) : Pos) ∈ (wholeFrame 2 1).pixels := by decide
  refine ⟨u, h, fun received consumed => canvas_of_run ?_ h consumed inFrame ?_⟩
  · refine eachStep_cons.mpr fun s₁ step₁ => ⟨⟨⟨rfl, rfl⟩, by rintro ⟨⟩⟩,
      eachStep_cons.mpr fun s₂ step₂ => ⟨⟨trivial, by rintro ⟨⟩⟩,
        eachStep_cons.mpr fun s₃ _ => ⟨?_, eachStep_of_forall ?_ s₃⟩⟩⟩
    · cases step₁
      cases step₂
      exact ⟨Option.some_ne_none _, List.mem_singleton_self _⟩
    · intro input h _ s _
      rcases List.mem_append.mp h with h | h
      · obtain ⟨action, hcopy, rfl⟩ := List.mem_map.mp h
        rcases mem_copying hcopy with rfl | rfl | rfl | rfl <;>
          exact ⟨trivial, by rintro ⟨⟩⟩
      · rw [List.mem_singleton.mp h]
        exact trivial
  · have taken : ((1, 0) : Pos) ∈ dirtyArea [wholeFrame 2 1] :=
      ⟨_, List.mem_singleton_self _, inFrame⟩
    have settled := all.settled (after.marked _ (by decide)) fun h => h.2 taken
    exact fun h => settled (Or.inl h)

/-- **A page flip is shown**: from any state that such a run reaches with no grab under
way, when the desktop exchanges its framebuffer, the next turn of the loop makes the
server show all of the new one, and the cursor over it. -/
theorem canvas_of_flip {cursor : EvdiCursor} {memory : EvdiFramebuffer → Pos → Word}
    {fd : ℕ} {inputs : List DisplayInput}
    (paged : EachStep (displayStep params width height pfNoBgcolor)
      (fun _ s input _ => s.Paged width height input)
        (.start cursor memory fd canvas) inputs)
    (h : run (displayStep params width height pfNoBgcolor) (.start cursor memory fd canvas)
      inputs = some t) (idle : t.system.grab = none) (mode : Admitted width height)
    {efb : EvdiFramebuffer} (size : efb.width = width ∧ efb.height = height) :
    ∃ pixels u, run (displayStep params width height pfNoBgcolor) t
        (flipInputs efb ++ wholeTurn width height pixels) = some u ∧
      ∀ received, u.program.Consumes received → ∀ p ∈ (wholeFrame width height).pixels,
        canvasAfter canvas received p = colourOf
          (params.overlay t.system.driver.device.cursor efb (t.system.memory efb) p) := by
  have shown := (Display.Shows.start cursor memory fd canvas).run paged h
  obtain ⟨s, flipped, shows, after⟩ := shown.run_flip size mode
  have whole := after.whole
  rw [size.1, size.2] at whole
  obtain ⟨u, turned, shown', all⟩ :=
    shows.run_wholeTurn (after.grab.trans idle) after.scanout whole
  let pixels := (params.composePositions s.system.driver.device.cursor efb).length
  refine ⟨pixels, u, ?_, fun received consumed p hp => ?_⟩
  · rw [run_append, flipped]
    exact turned
  · rw [shown'.canvasAfter consumed hp, all.copied p ⟨_, List.mem_singleton_self _, hp⟩,
      System.view, after.memory, after.cursor]

/-- A flip, and the wall shows the two pixels, one of them under the cursor. -/
theorem canvas_of_flip_whiteWall : ∃ pixels u,
    run (displayStep blending 2 1 pfNoBgcolor) whiteWall
        (flipInputs twoPixels ++ wholeTurn 2 1 pixels) = some u ∧
      ∀ received, u.program.Consumes received → ∀ p ∈ (wholeFrame 2 1).pixels,
        canvasAfter (fun _ => 0xffffff) received p = colourOf
          (blending.overlay whiteCursor twoPixels
            (scanoutWord twoPixels (List.replicate 8 7)) p) :=
  canvas_of_flip (eachStep_nil _) (run_nil whiteWall) rfl ⟨by decide, by decide⟩ ⟨rfl, rfl⟩

end Runs

end Kernelflut
