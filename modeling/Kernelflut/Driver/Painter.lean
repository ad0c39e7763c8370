import Kernelflut.Driver.Cursor
import Kernelflut.Driver.DrmEvents
import Kernelflut.Foundations.Runs

/-!
# The painter of the evdi driver

The painter is what the two sides of the driver share.  On the one side the kernel's
mode setting hands it framebuffers to scan out, and marks what was drawn; on the other
a process connects with the EDID of its display, asks to be told when there is
something to grab, and grabs.

The functions below are those of `evdi_painter.c`, and of `evdi_modeset.c` and
`evdi_fb.c` what calls them.  They are on an `EvdiDevice`, which has the `events` it
sent, and with `refs` the references to framebuffers it took and did not give back.
Checks for a device without painter are left out: `evdi_driver_setup` makes one or
fails.

A critical section, under the lock of the painter, is one function here.  The others
are sequences of these, and `driverStep` is one section at a time, whoever it is that
runs it.  So a run is any interleaving, of any number of processes.

All events but the one for an update are sent without the lock.  These senders are three
steps: they see that a file is connected, read again which, and append to its queue.  A
`list_add_tail` is one step, although two of them at once may break the list.
-/

namespace Kernelflut.Driver

open Kernelflut.Pixelflut MachineInt PartialStep

/-- A `struct drm_file *`: an open of the device. -/
abbrev DrmFile := ℕ

/-- `sizeof(struct edid)` -/
def edidSize : ℕ := 128

/-- `#define EDID_EXT_BLOCK_SIZE 128` -/
def edidExtBlockSize : ℕ := 128

/-- `#define MAX_EDID_SIZE (255 * EDID_EXT_BLOCK_SIZE + sizeof(struct edid))` -/
def maxEdidSize : ℕ := 255 * edidExtBlockSize + edidSize

/-- `edid->extensions`, the last byte but one of the first block. -/
def edidExtensions (edid : List UInt8) : ℕ := (edid.getD 126 0).toNat

/-- `struct evdi_painter` -/
structure EvdiPainter where
  isConnected : Bool
  edid : Option (List UInt8)
  edidLength : ℕ
  /-- `dirty_rects`, as many of them as `num_dirts` says. -/
  dirtyRects : List DrmClipRect
  scanoutFb : Option EvdiFramebuffer
  drmFilp : Option DrmFile
  wasUpdateRequested : Bool
  needsFullModeset : Bool

/-- `struct evdi_device`, with what it does to others. -/
structure EvdiDevice where
  devIndex : ℤ
  skuAreaLimit : ℕ
  cursor : EvdiCursor
  painter : EvdiPainter
  /-- All events, with the file into whose `event_list` they went. -/
  events : List (DrmFile × EvdiEvent)
  /-- The references of `drm_framebuffer_get` without those of `drm_framebuffer_put`,
  for each framebuffer. -/
  refs : EvdiFramebuffer → ℤ

namespace EvdiDevice

/-- `evdi_painter_is_connected(evdi)` -/
def isConnected (evdi : EvdiDevice) : Bool := evdi.painter.isConnected

/-- `evdi_painter_get_edid_copy(evdi)`, for which there is memory. -/
def getEdidCopy (evdi : EvdiDevice) : Option (List UInt8) :=
  if evdi.isConnected then
    evdi.painter.edid.bind fun edid =>
      if evdi.painter.edidLength ≠ 0 then some (edid.take evdi.painter.edidLength) else none
  else none

/-- `if (efb) drm_framebuffer_get(&efb->base)` -/
def getFb (evdi : EvdiDevice) : Option EvdiFramebuffer → EvdiDevice
  | none => evdi
  | some efb => { evdi with refs := Function.update evdi.refs efb (evdi.refs efb + 1) }

/-- `if (efb) drm_framebuffer_put(&efb->base)` -/
def putFb (evdi : EvdiDevice) : Option EvdiFramebuffer → EvdiDevice
  | none => evdi
  | some efb => { evdi with refs := Function.update evdi.refs efb (evdi.refs efb - 1) }

/-- The functions `evdi_painter_send_…`, which send nothing when no one is connected,
with nothing in between. -/
def sendEvent (evdi : EvdiDevice) (event : EvdiEvent) : EvdiDevice :=
  match evdi.painter.drmFilp with
  | some drmFilp => { evdi with events := evdi.events ++ [(drmFilp, event)] }
  | none => evdi

/-- `evdi_painter_send_cursor_set(painter, cursor)`.  The handle is what
`evdi_painter_get_gem_handle` finds or creates for the cursor's object, or 0. -/
def sendCursorSet (evdi : EvdiDevice) (bufferHandle : ℕ) : EvdiDevice :=
  let cursor := evdi.cursor
  let bufferLength := (cursor.obj.map EvdiGemObject.size).getD 0
  let visible := bufferHandle ≠ 0
  evdi.sendEvent <| .cursorSet
    { hotX := cursor.hotX
      hotY := cursor.hotY
      width := cursor.width
      height := cursor.height
      enabled := if visible ∧ cursor.enabled then 1 else 0
      bufferHandle
      bufferLength := if visible then bufferLength else 0
      pixelFormat := cursor.pixelFormat
      stride := cursor.stride }

/-- `evdi_painter_send_cursor_move(painter, cursor)` -/
def sendCursorMove (evdi : EvdiDevice) : EvdiDevice :=
  evdi.sendEvent (.cursorMove ⟨evdi.cursor.x, evdi.cursor.y⟩)

/-- `evdi_painter_framebuffer_size(painter)` -/
def framebufferSize (evdi : EvdiDevice) : DrmClipRect :=
  match evdi.painter.scanoutFb with
  | none => ⟨0, 0, 0, 0⟩
  | some efb => ⟨0, 0, u16 efb.width, u16 efb.height⟩

/-- `evdi_painter_mark_dirty(evdi, dirty_rect)` -/
def markDirty (evdi : EvdiDevice) (dirtyRect : DrmClipRect) : EvdiDevice :=
  match evdi.painter.scanoutFb with
  | none => evdi
  | some efb =>
      { evdi with
        painter.dirtyRects := addDirtyRect evdi.painter.dirtyRects
          (sanitizeRect efb.width efb.height dirtyRect) }

/-- `evdi_painter_send_update_ready_if_needed(evdi)` -/
def sendUpdateReadyIfNeeded (evdi : EvdiDevice) : EvdiDevice :=
  if evdi.painter.wasUpdateRequested then
    { evdi.sendEvent .updateReady with painter.wasUpdateRequested := false }
  else evdi

/-- `evdi_painter_mode_changed_notify(evdi, new_mode)` -/
def modeChangedNotify (evdi : EvdiDevice) (hdisplay vdisplay vrefresh : ℤ) : EvdiDevice :=
  match evdi.painter.scanoutFb with
  | none => evdi
  | some efb =>
      { evdi.sendEvent (.modeChanged
          ⟨hdisplay, vdisplay, vrefresh, efb.bitsPerPixel, efb.pixelFormat⟩) with
        painter.needsFullModeset := false }

/-- `evdi_painter_connect(evdi, edid_data, edid_length, sku_area_limit, file, dev_index)`.
`edidData` are the bytes that can be read, and `allocated` says whether there is memory
for the copy. -/
def connect (evdi : EvdiDevice) (allocated : Bool) (edidData : List UInt8) (edidLength : ℕ)
    (skuAreaLimit : ℕ) (file : DrmFile) (devIndex : ℤ) : EvdiDevice × ℤ :=
  if edidLength < edidSize then (evdi, -eInval)
  else if maxEdidSize < edidLength then (evdi, -eInval)
  else if !allocated then (evdi, -eNoMem)
  else if edidData.length < edidLength then (evdi, -eFault)
  else
    let newEdid := edidData.take edidLength
    let expectedEdidSize := edidSize + edidExtensions newEdid * edidExtBlockSize
    if expectedEdidSize ≠ edidLength then (evdi, -eInval)
    else
      ({ evdi with
          devIndex
          skuAreaLimit
          painter.drmFilp := some file
          painter.edidLength := edidLength
          painter.edid := some newEdid
          painter.isConnected := true
          painter.needsFullModeset := true }, 0)

/-- `evdi_painter_disconnect(evdi, file)` -/
def disconnect (evdi : EvdiDevice) (file : DrmFile) : EvdiDevice × ℤ :=
  if some file ≠ evdi.painter.drmFilp then (evdi, -eFault)
  else
    let evdi := { evdi.putFb evdi.painter.scanoutFb with painter.scanoutFb := none }
    ({ evdi with
        painter.isConnected := false
        cursor := cursorEnable evdi.cursor false
        painter.drmFilp := none
        devIndex := -1
        painter.wasUpdateRequested := false }, 0)

/-- `evdi_painter_close(evdi, file)` -/
def close (evdi : EvdiDevice) (file : DrmFile) : EvdiDevice := (evdi.disconnect file).1

/-- `evdi_painter_set_scanout_buffer(evdi, newfb)` -/
def setScanoutBuffer (evdi : EvdiDevice) (newfb : Option EvdiFramebuffer) : EvdiDevice :=
  let evdi := evdi.getFb newfb
  let oldfb := evdi.painter.scanoutFb
  let evdi := { evdi with painter.scanoutFb := newfb }
  evdi.putFb oldfb

/-- `evdi_painter_request_update_ioctl(drm_dev, data, file)` -/
def requestUpdate (evdi : EvdiDevice) : EvdiDevice × ℤ :=
  if evdi.painter.wasUpdateRequested then (evdi, 0)
  else if evdi.painter.dirtyRects.length > 0 then (evdi, 1)
  else ({ evdi with painter.wasUpdateRequested := true }, 0)

/-- What of `struct drm_evdi_grabpix` decides what becomes of a grab. -/
structure Grabpix where
  mode : ℕ
  bufWidth : ℤ
  bufHeight : ℤ
  numRects : ℤ
  deriving DecidableEq, Repr

/-- `EVDI_GRABPIX_MODE_DIRTY` -/
def grabpixModeDirty : ℕ := 1

/-- `evdi_painter_grabpix_ioctl(drm_dev, data, file)` up to where it gives up the lock:
the error, or the framebuffer and the rectangles to copy. -/
def grabpix (evdi : EvdiDevice) (cmd : Grabpix) :
    EvdiDevice × Except ℤ (EvdiFramebuffer × List DrmClipRect) :=
  if cmd.mode ≠ grabpixModeDirty then (evdi, .error (-eInval))
  else if cmd.numRects < 1 then (evdi, .error (-eInval))
  else
    let dirtyRects := mergeDirtyRects evdi.painter.dirtyRects
    let dirtyRects :=
      if dirtyRects.length > cmd.numRects then collapseDirtyRects dirtyRects else dirtyRects
    match evdi.painter.scanoutFb with
    | none => ({ evdi with painter.dirtyRects := dirtyRects }, .error (-eAgain))
    | some efb =>
      ({ evdi with painter.dirtyRects := [] }.getFb (some efb), .ok (efb, dirtyRects))

/-! ## What consists of several critical sections -/

/-- `evdi_mark_full_screen_dirty(evdi)` -/
def markFullScreenDirty (evdi : EvdiDevice) : EvdiDevice :=
  (evdi.markDirty evdi.framebufferSize).sendUpdateReadyIfNeeded

/-- `evdi_crtc_cursor_set(crtc, file, handle, width, height, hot_x, hot_y)`, `obj` being
the object with that handle. -/
def crtcCursorSet (enableCursorBlending : Bool)
    (vmap : EvdiGemObject → Except ℤ EvdiGemObject) (evdi : EvdiDevice)
    (obj : Option EvdiGemObject) (width height : ℕ) (hotX hotY : ℤ)
    (format bufferHandle : ℕ) : EvdiDevice :=
  let evdi := { evdi with
    cursor := cursorSet vmap evdi.cursor obj width height hotX hotY format (4 * width) }
  if enableCursorBlending then evdi.markFullScreenDirty else evdi.sendCursorSet bufferHandle

/-- `evdi_crtc_cursor_move(crtc, x, y)` -/
def crtcCursorMove (enableCursorBlending : Bool) (evdi : EvdiDevice) (x y : ℤ) :
    EvdiDevice :=
  let evdi := { evdi with cursor := cursorMove evdi.cursor x y }
  if enableCursorBlending then evdi.markFullScreenDirty else evdi.sendCursorMove

/-- `evdi_crtc_atomic_flush(crtc, old_state)`, `DRM_MODE_DPMS_ON` being 0 and
`DRM_MODE_DPMS_OFF` 3. -/
def crtcAtomicFlush (evdi : EvdiDevice) (modeChanged active activeChanged : Bool)
    (hdisplay vdisplay vrefresh : ℤ) : EvdiDevice :=
  let evdi :=
    if modeChanged && active then evdi.modeChangedNotify hdisplay vdisplay vrefresh
    else evdi
  let evdi :=
    if activeChanged then evdi.sendEvent (.dpms (if active then 0 else 3)) else evdi
  evdi.sendUpdateReadyIfNeeded

/-- `evdi_plane_atomic_update(plane, old_state)`, given whether the plane had and has a
CRTC, and the framebuffers. -/
def planeAtomicUpdate (evdi : EvdiDevice) (oldCrtc crtc : Bool)
    (oldFb fb : Option EvdiFramebuffer) : EvdiDevice :=
  let evdi :=
    if !oldCrtc && crtc then evdi.sendEvent (.dpms 0)
    else if oldCrtc && !crtc then evdi.sendEvent (.dpms 3)
    else evdi
  match fb with
  | none => evdi
  | some efb =>
      let fullscreenRect : DrmClipRect := ⟨0, 0, u16 efb.width, u16 efb.height⟩
      if fb ≠ oldFb ∨ evdi.painter.needsFullModeset = true then
        (evdi.setScanoutBuffer (some efb)).markDirty fullscreenRect
      else if evdi.painter.dirtyRects.length = 0 then evdi.markDirty fullscreenRect
      else evdi

/-- `evdi_handle_damage(fb, x, y, width, height)` -/
def handleDamage (evdi : EvdiDevice) (efb : EvdiFramebuffer) (active : Bool)
    (x y width height : ℤ) : EvdiDevice :=
  let dirtyRect : DrmClipRect := ⟨u16 x, u16 y, u16 (x + width), u16 (y + height)⟩
  let rect := sanitizeRect efb.width efb.height dirtyRect
  if !active then evdi
  else (evdi.setScanoutBuffer (some efb)).markDirty rect

/-- `evdi_user_framebuffer_dirty(fb, file_priv, flags, color, clips, num_clips)`, before
it commits. -/
def userFramebufferDirty (evdi : EvdiDevice) (clips : List DrmClipRect) : EvdiDevice :=
  clips.foldl markDirty evdi

/-! ## What the functions leave alone -/

section Frame

variable (evdi : EvdiDevice)

@[simp] theorem sendEvent_painter (event : EvdiEvent) :
    (evdi.sendEvent event).painter = evdi.painter := by
  rw [sendEvent]
  split <;> rfl

@[simp] theorem sendEvent_refs (event : EvdiEvent) :
    (evdi.sendEvent event).refs = evdi.refs := by
  rw [sendEvent]
  split <;> rfl

/-- What is sent goes to the file that is connected. -/
theorem sendEvent_events (event : EvdiEvent) :
    (evdi.sendEvent event).events =
      evdi.events ++ (evdi.painter.drmFilp.map fun file => (file, event)).toList := by
  rw [sendEvent]
  split
  · next file connected => rw [connected]; rfl
  · next none => rw [none]; exact (List.append_nil _).symm

@[simp] theorem getFb_painter (fb : Option EvdiFramebuffer) :
    (evdi.getFb fb).painter = evdi.painter := by
  cases fb <;> rfl

@[simp] theorem putFb_painter (fb : Option EvdiFramebuffer) :
    (evdi.putFb fb).painter = evdi.painter := by
  cases fb <;> rfl

@[simp] theorem getFb_events (fb : Option EvdiFramebuffer) :
    (evdi.getFb fb).events = evdi.events := by
  cases fb <;> rfl

@[simp] theorem putFb_events (fb : Option EvdiFramebuffer) :
    (evdi.putFb fb).events = evdi.events := by
  cases fb <;> rfl

@[simp] theorem getFb_cursor (fb : Option EvdiFramebuffer) :
    (evdi.getFb fb).cursor = evdi.cursor := by
  cases fb <;> rfl

@[simp] theorem putFb_cursor (fb : Option EvdiFramebuffer) :
    (evdi.putFb fb).cursor = evdi.cursor := by
  cases fb <;> rfl

/-- One reference more, to that framebuffer only. -/
theorem getFb_refs (fb : Option EvdiFramebuffer) (efb : EvdiFramebuffer) :
    (evdi.getFb fb).refs efb = evdi.refs efb + if fb = some efb then 1 else 0 := by
  cases fb with
  | none => simp [getFb]
  | some fb =>
      by_cases same : efb = fb
      · simp [getFb, same]
      · simp [getFb, Function.update_of_ne same, Ne.symm same]

/-- One reference less. -/
theorem putFb_refs (fb : Option EvdiFramebuffer) (efb : EvdiFramebuffer) :
    (evdi.putFb fb).refs efb = evdi.refs efb - if fb = some efb then 1 else 0 := by
  cases fb with
  | none => simp [putFb]
  | some fb =>
      by_cases same : efb = fb
      · simp [putFb, same]
      · simp [putFb, Function.update_of_ne same, Ne.symm same]

@[simp] theorem setScanoutBuffer_painter (newfb : Option EvdiFramebuffer) :
    (evdi.setScanoutBuffer newfb).painter = { evdi.painter with scanoutFb := newfb } := by
  simp [setScanoutBuffer]

@[simp] theorem setScanoutBuffer_cursor (newfb : Option EvdiFramebuffer) :
    (evdi.setScanoutBuffer newfb).cursor = evdi.cursor := by
  simp [setScanoutBuffer]

@[simp] theorem markDirty_drmFilp (rect : DrmClipRect) :
    (evdi.markDirty rect).painter.drmFilp = evdi.painter.drmFilp := by
  rw [markDirty]
  split <;> rfl

@[simp] theorem markDirty_scanoutFb (rect : DrmClipRect) :
    (evdi.markDirty rect).painter.scanoutFb = evdi.painter.scanoutFb := by
  rw [markDirty]
  split <;> rfl

@[simp] theorem markDirty_cursor (rect : DrmClipRect) :
    (evdi.markDirty rect).cursor = evdi.cursor := by
  rw [markDirty]
  split <;> rfl

@[simp] theorem markDirty_events (rect : DrmClipRect) :
    (evdi.markDirty rect).events = evdi.events := by
  rw [markDirty]
  split <;> rfl

/-- The damage of a display stays when it is disconnected. -/
theorem disconnect_dirtyRects (file : DrmFile) :
    (evdi.disconnect file).1.painter.dirtyRects = evdi.painter.dirtyRects := by
  rw [disconnect]
  split <;> simp

end Frame

/-- What a grab takes: nothing is lost, and nothing stays behind. -/
theorem grabpix_cases (evdi : EvdiDevice) (cmd : Grabpix) :
    (∃ err rects,
      evdi.grabpix cmd = ({ evdi with painter.dirtyRects := rects }, .error err) ∧
        Merging.Merges expandRect (fun _ _ => True) evdi.painter.dirtyRects rects) ∨
      ∃ efb rects, evdi.grabpix cmd =
          ({ evdi with painter.dirtyRects := [] }.getFb (some efb), .ok (efb, rects)) ∧
        evdi.painter.scanoutFb = some efb ∧
        Merging.Merges expandRect (fun _ _ => True) evdi.painter.dirtyRects rects ∧
        rects.length ≤ cmd.numRects := by
  rw [grabpix]
  split
  · exact Or.inl ⟨_, _, rfl, .refl _⟩
  split
  · exact Or.inl ⟨_, _, rfl, .refl _⟩
  · next _ space =>
      have merges : Merging.Merges expandRect (fun _ _ => True) evdi.painter.dirtyRects
          (mergeDirtyRects evdi.painter.dirtyRects) :=
        (merges_mergeDirtyRects _).mono fun _ _ _ => trivial
      have taken : Merging.Merges expandRect (fun _ _ => True) evdi.painter.dirtyRects
          (if (mergeDirtyRects evdi.painter.dirtyRects).length > cmd.numRects then
            collapseDirtyRects (mergeDirtyRects evdi.painter.dirtyRects)
          else mergeDirtyRects evdi.painter.dirtyRects) := by
        split
        · exact merges.trans (merges_collapseDirtyRects _)
        · exact merges
      cases scanout : evdi.painter.scanoutFb with
      | none => exact Or.inl ⟨_, _, rfl, taken⟩
      | some efb =>
          refine Or.inr ⟨efb, _, rfl, rfl, taken, ?_⟩
          split
          · next many =>
              cases merged : mergeDirtyRects evdi.painter.dirtyRects with
              | nil =>
                  rw [collapseDirtyRects]
                  exact le_trans (by norm_num) (not_lt.mp space)
              | cons r rest => exact not_lt.mp space
          · next few => exact not_lt.mp few

/-- A grab takes the framebuffer that is scanned out. -/
theorem grabpix_of_scanout {evdi : EvdiDevice} {efb : EvdiFramebuffer}
    (scanout : evdi.painter.scanoutFb = some efb) {cmd : Grabpix}
    (mode : cmd.mode = grabpixModeDirty) (space : 1 ≤ cmd.numRects) :
    ∃ device rects, evdi.grabpix cmd = (device, .ok (efb, rects)) ∧
      Merging.Merges expandRect (fun _ _ => True) evdi.painter.dirtyRects rects := by
  rcases evdi.grabpix_cases cmd with
    ⟨err, rects, failed, -⟩ | ⟨efb', rects, taken, found, merges, -⟩
  · simp [grabpix, mode, not_lt.mpr space, scanout] at failed
  · obtain rfl : efb' = efb := Option.some.inj (found.symm.trans scanout)
    exact ⟨_, rects, taken, merges⟩

end EvdiDevice

/-! ## Runs -/

/-- The events that are sent without the lock. -/
abbrev Notification := { event : EvdiEvent // event ≠ .updateReady }

/-- The device, and what calls have that are under way. -/
structure DriverState where
  device : EvdiDevice
  /-- The framebuffers that grabs are copying from. -/
  grabbing : List EvdiFramebuffer
  /-- How many senders found `drm_filp` set, and are still to read it again. -/
  pending : ℕ
  /-- The others, with what they are about to append to the queue of which file. -/
  sending : List (DrmFile × Notification)

/-- After `evdi_painter_init`. -/
def DriverState.start (cursor : EvdiCursor) : DriverState where
  device :=
    { devIndex := 0
      skuAreaLimit := 0
      cursor
      painter :=
        { isConnected := false
          edid := none
          edidLength := 0
          dirtyRects := []
          scanoutFb := none
          drmFilp := none
          wasUpdateRequested := false
          needsFullModeset := true }
      events := []
      refs := fun _ => 0 }
  grabbing := []
  pending := 0
  sending := []

inductive DriverInput where
  | connect (allocated : Bool) (edidData : List UInt8) (edidLength skuAreaLimit : ℕ)
      (file : DrmFile) (devIndex : ℤ)
  | disconnect (file : DrmFile)
  | close (file : DrmFile)
  | markDirty (rect : DrmClipRect)
  | setScanoutBuffer (newfb : Option EvdiFramebuffer)
  | sendUpdateReadyIfNeeded
  /-- `if (painter->drm_filp)`, in a sender without the lock. -/
  | findFile
  /-- The event of one of them is filled in, and `evdi_painter_send_event` called with the
  `painter->drm_filp` of this moment. -/
  | sendEvent (event : Notification)
  /-- `list_add_tail(event_link, &drm_filp->event_list)` -/
  | listAddTail (drmFilp : DrmFile) (event : Notification)
  /-- The end of `evdi_painter_mode_changed_notify`. -/
  | modeChangedNotified
  /-- `evdi_cursor_set` or `evdi_cursor_move`. -/
  | cursor (cursor : EvdiCursor)
  | requestUpdate
  | grabpix (cmd : EvdiDevice.Grabpix)
  /-- A grab has copied what it could, and gives up its framebuffer. -/
  | grabbed (efb : EvdiFramebuffer)

/-- One critical section, and whatever else is not divided. -/
def driverStep (s : DriverState) : DriverInput → Option DriverState
  | .connect allocated edidData edidLength skuAreaLimit file devIndex =>
      some { s with device :=
        (s.device.connect allocated edidData edidLength skuAreaLimit file devIndex).1 }
  | .disconnect file => some { s with device := (s.device.disconnect file).1 }
  | .close file => some { s with device := s.device.close file }
  | .markDirty rect => some { s with device := s.device.markDirty rect }
  | .setScanoutBuffer newfb => some { s with device := s.device.setScanoutBuffer newfb }
  | .sendUpdateReadyIfNeeded => some { s with device := s.device.sendUpdateReadyIfNeeded }
  | .findFile =>
      some { s with pending :=
        if s.device.painter.drmFilp.isSome then s.pending + 1 else s.pending }
  | .sendEvent event =>
      if s.pending = 0 then none
      else
        match s.device.painter.drmFilp with
        -- The file is gone, and `&drm_filp->event_list` that of a null pointer.
        | none => none
        | some drmFilp =>
            some { s with
              pending := s.pending - 1, sending := (drmFilp, event) :: s.sending }
  | .listAddTail drmFilp event =>
      if (drmFilp, event) ∈ s.sending then
        some { s with
          device.events := s.device.events ++ [(drmFilp, event.1)]
          sending := s.sending.erase (drmFilp, event) }
      else none
  | .modeChangedNotified => some { s with device.painter.needsFullModeset := false }
  | .cursor cursor => some { s with device.cursor := cursor }
  | .requestUpdate => some { s with device := s.device.requestUpdate.1 }
  | .grabpix cmd =>
      match s.device.grabpix cmd with
      | (device, .ok (efb, _)) => some { s with device, grabbing := efb :: s.grabbing }
      | (device, .error _) => some { s with device }
  | .grabbed efb =>
      if efb ∈ s.grabbing then
        some { s with
          device := s.device.putFb (some efb), grabbing := s.grabbing.erase efb }
      else none

/-! ## What a step did -/

section Inversion

variable {s t : DriverState}

/-- The sender found the file that is connected. -/
theorem driverStep_sendEvent {event : Notification}
    (step : driverStep s (.sendEvent event) = some t) :
    s.pending ≠ 0 ∧ ∃ drmFilp, s.device.painter.drmFilp = some drmFilp ∧
      t = { s with
        pending := s.pending - 1, sending := (drmFilp, event) :: s.sending } := by
  rw [driverStep] at step
  split at step
  · cases step
  · next pending =>
      split at step
      · cases step
      · next drmFilp connected =>
          exact ⟨pending, drmFilp, connected, (Option.some.inj step).symm⟩

/-- The event was one that was about to be appended. -/
theorem driverStep_listAddTail {drmFilp : DrmFile} {event : Notification}
    (step : driverStep s (.listAddTail drmFilp event) = some t) :
    (drmFilp, event) ∈ s.sending ∧
      t = { s with
        device.events := s.device.events ++ [(drmFilp, event.1)]
        sending := s.sending.erase (drmFilp, event) } := by
  rw [driverStep] at step
  split at step
  · next sending => exact ⟨sending, (Option.some.inj step).symm⟩
  · cases step

/-- A grab merges the damage and fails, or takes it. -/
theorem driverStep_grabpix {cmd : EvdiDevice.Grabpix}
    (step : driverStep s (.grabpix cmd) = some t) :
    (∃ err rects,
      s.device.grabpix cmd =
          ({ s.device with painter.dirtyRects := rects }, .error err) ∧
        Merging.Merges expandRect (fun _ _ => True) s.device.painter.dirtyRects rects ∧
        t = { s with device.painter.dirtyRects := rects }) ∨
      ∃ efb rects, s.device.grabpix cmd =
          ({ s.device with painter.dirtyRects := [] }.getFb (some efb), .ok (efb, rects)) ∧
        t = { s with
          device := { s.device with painter.dirtyRects := [] }.getFb (some efb)
          grabbing := efb :: s.grabbing } := by
  rw [driverStep] at step
  rcases s.device.grabpix_cases cmd with
    ⟨err, rects, failed, merges⟩ | ⟨efb, rects, taken, -⟩
  · rw [failed] at step
    exact Or.inl ⟨err, rects, failed, merges, (Option.some.inj step).symm⟩
  · rw [taken] at step
    exact Or.inr ⟨efb, rects, taken, (Option.some.inj step).symm⟩

/-- A grab that ends had begun. -/
theorem driverStep_grabbed {efb : EvdiFramebuffer}
    (step : driverStep s (.grabbed efb) = some t) :
    efb ∈ s.grabbing ∧
      t = { s with
        device := s.device.putFb (some efb), grabbing := s.grabbing.erase efb } := by
  rw [driverStep] at step
  split at step
  · next copying => exact ⟨copying, (Option.some.inj step).symm⟩
  · cases step

end Inversion

/-! ## Its invariant -/

/-- **What holds of the painter between calls.**  Within `evdi_painter_set_scanout_buffer`
there is one reference more, taken before its critical section or given up after it. -/
structure DriverInv (s : DriverState) : Prop where
  /-- `num_dirts` never exceeds `MAX_DIRTS`. -/
  fewDirts : s.device.painter.dirtyRects.length ≤ maxDirts
  /-- Connected is to have a file to send events to. -/
  connected : s.device.painter.isConnected = s.device.painter.drmFilp.isSome
  /-- A connected display has an EDID, with the blocks it announces. -/
  edid : s.device.painter.isConnected = true → ∃ edid, s.device.getEdidCopy = some edid ∧
    edid.length = edidSize + edidExtensions edid * edidExtBlockSize
  /-- The driver has a reference to each framebuffer that it scans out or copies from,
  and no other. -/
  refs : ∀ efb, s.device.refs efb =
    (if s.device.painter.scanoutFb = some efb then 1 else 0) + s.grabbing.count efb

/-- After `evdi_painter_init` nothing is held. -/
theorem DriverInv.start (cursor : EvdiCursor) : DriverInv (.start cursor) where
  fewDirts := Nat.zero_le _
  connected := rfl
  edid := nofun
  refs := fun _ => rfl

section Invariant

variable {s : DriverState}

/-- Sending changes neither the painter nor references. -/
theorem DriverInv.sendEvent (inv : DriverInv s) (event : EvdiEvent) :
    DriverInv { s with device := s.device.sendEvent event } := by
  have painter := s.device.sendEvent_painter event
  constructor
  · exact painter ▸ inv.fewDirts
  · exact painter ▸ inv.connected
  · simp only [EvdiDevice.getEdidCopy, EvdiDevice.isConnected, painter]
    exact inv.edid
  · intro efb
    rw [EvdiDevice.sendEvent_refs, painter]
    exact inv.refs efb

/-- Only a valid EDID is connected. -/
theorem DriverInv.connect (inv : DriverInv s) (allocated : Bool) (edidData : List UInt8)
    (edidLength skuAreaLimit : ℕ) (file : DrmFile) (devIndex : ℤ) :
    DriverInv { s with device :=
      (s.device.connect allocated edidData edidLength skuAreaLimit file devIndex).1 } := by
  rw [EvdiDevice.connect]
  split
  · exact inv
  split
  · exact inv
  split
  · exact inv
  split
  · exact inv
  dsimp only
  split
  · exact inv
  · next short _ _ missing expected =>
      have length : (edidData.take edidLength).length = edidLength := by
        rw [List.length_take]
        omega
      refine { inv with
        connected := rfl, edid := fun _ => ⟨edidData.take edidLength, ?_, ?_⟩ }
      · have some : edidLength ≠ 0 := by
          rw [edidSize] at short
          omega
        simp [EvdiDevice.getEdidCopy, EvdiDevice.isConnected, some]
      · rw [length]
        exact (not_not.mp expected).symm

/-- Its reference to the framebuffer is given up with the connection. -/
theorem DriverInv.disconnect (inv : DriverInv s) (file : DrmFile) :
    DriverInv { s with device := (s.device.disconnect file).1 } := by
  rw [EvdiDevice.disconnect]
  split
  · exact inv
  · refine { fewDirts := ?_, connected := rfl, edid := nofun, refs := fun efb => ?_ }
    · simpa using inv.fewDirts
    · have before := inv.refs efb
      show (s.device.putFb s.device.painter.scanoutFb).refs efb =
        (if (none : Option EvdiFramebuffer) = some efb then 1 else 0) + s.grabbing.count efb
      rw [EvdiDevice.putFb_refs, before, if_neg (Option.some_ne_none efb).symm]
      omega

/-- The reference to the new framebuffer is taken, that to the old one given up. -/
theorem DriverInv.setScanoutBuffer (inv : DriverInv s) (newfb : Option EvdiFramebuffer) :
    DriverInv { s with device := s.device.setScanoutBuffer newfb } := by
  have painter := s.device.setScanoutBuffer_painter newfb
  refine { fewDirts := ?_, connected := ?_, edid := ?_, refs := fun efb => ?_ }
  · rw [painter]
    exact inv.fewDirts
  · rw [painter]
    exact inv.connected
  · simp only [EvdiDevice.getEdidCopy, EvdiDevice.isConnected, painter]
    exact inv.edid
  · have before := inv.refs efb
    rw [painter]
    show (EvdiDevice.putFb { s.device.getFb newfb with
      painter.scanoutFb := newfb } (s.device.getFb newfb).painter.scanoutFb).refs efb =
        (if newfb = some efb then 1 else 0) + s.grabbing.count efb
    rw [EvdiDevice.putFb_refs, EvdiDevice.getFb_painter]
    show (s.device.getFb newfb).refs efb - _ = _
    rw [EvdiDevice.getFb_refs, before]
    omega

/-- A grab that goes on to copy has taken a reference of its own, -/
theorem DriverInv.grabpix (inv : DriverInv s) (cmd : EvdiDevice.Grabpix) {t : DriverState}
    (step : driverStep s (.grabpix cmd) = some t) : DriverInv t := by
  rcases driverStep_grabpix step with ⟨-, rects, -, merges, rfl⟩ | ⟨efb, rects, -, rfl⟩
  · exact { inv with fewDirts := merges.length_le.trans inv.fewDirts }
  · refine { inv with fewDirts := Nat.zero_le _, refs := fun other => ?_ }
    have before := inv.refs other
    show
      (EvdiDevice.getFb { s.device with painter.dirtyRects := [] } (some efb)).refs other =
      (if s.device.painter.scanoutFb = some other then 1 else 0) +
        ((efb :: s.grabbing).count other : ℤ)
    rw [EvdiDevice.getFb_refs, List.count_cons]
    show s.device.refs other + _ = _
    rw [before]
    by_cases same : efb = other
    · simp [same]
      omega
    · simp [same]

/-- and gives it up in the end. -/
theorem DriverInv.grabbed (inv : DriverInv s) {efb : EvdiFramebuffer} {t : DriverState}
    (step : driverStep s (.grabbed efb) = some t) : DriverInv t := by
  obtain ⟨copying, rfl⟩ := driverStep_grabbed step
  refine { inv with refs := fun other => ?_ }
  have before := inv.refs other
  show (s.device.putFb (some efb)).refs other =
    (if s.device.painter.scanoutFb = some other then 1 else 0) +
      ((s.grabbing.erase efb).count other : ℤ)
  rw [EvdiDevice.putFb_refs, before]
  by_cases same : efb = other
  · subst same
    have some : 0 < s.grabbing.count efb := List.count_pos_iff.mpr copying
    rw [if_pos rfl, List.count_erase_self]
    omega
  · rw [if_neg fun h => same (Option.some.inj h), List.count_erase_of_ne (Ne.symm same),
      sub_zero]

/-- There are never too many rectangles. -/
theorem DriverInv.markDirty (inv : DriverInv s) (rect : DrmClipRect) :
    DriverInv { s with device := s.device.markDirty rect } := by
  rw [EvdiDevice.markDirty]
  split
  · exact inv
  · exact { inv with fewDirts := length_addDirtyRect_le inv.fewDirts _ }

/-- An event changes none of it. -/
theorem DriverInv.sendUpdateReadyIfNeeded (inv : DriverInv s) :
    DriverInv { s with device := s.device.sendUpdateReadyIfNeeded } := by
  rw [EvdiDevice.sendUpdateReadyIfNeeded]
  split
  · exact { inv.sendEvent .updateReady with }
  · exact inv

/-- Nor does a request. -/
theorem DriverInv.requestUpdate (inv : DriverInv s) :
    DriverInv { s with device := s.device.requestUpdate.1 } := by
  rw [EvdiDevice.requestUpdate]
  split
  · exact inv
  split
  · exact inv
  · exact { inv with }

/-- One case per critical section. -/
theorem DriverInv.step {input : DriverInput} {t : DriverState} (inv : DriverInv s)
    (step : driverStep s input = some t) : DriverInv t := by
  cases input with
  | grabpix cmd => exact inv.grabpix cmd step
  | grabbed efb => exact inv.grabbed step
  | connect allocated edidData edidLength skuAreaLimit file devIndex =>
      cases step
      exact inv.connect allocated edidData edidLength skuAreaLimit file devIndex
  | disconnect file => cases step; exact inv.disconnect file
  | close file => cases step; exact inv.disconnect file
  | markDirty rect => cases step; exact inv.markDirty rect
  | setScanoutBuffer newfb => cases step; exact inv.setScanoutBuffer newfb
  | sendUpdateReadyIfNeeded => cases step; exact inv.sendUpdateReadyIfNeeded
  | findFile => cases step; exact { inv with }
  | sendEvent event =>
      obtain ⟨-, _, -, rfl⟩ := driverStep_sendEvent step
      exact { inv with }
  | listAddTail drmFilp event =>
      obtain ⟨-, rfl⟩ := driverStep_listAddTail step
      exact { inv with }
  | modeChangedNotified => cases step; exact { inv with }
  | cursor cursor => cases step; exact { inv with }
  | requestUpdate => cases step; exact inv.requestUpdate

/-- **The painter's invariant** holds between any two critical sections, whoever calls the
driver and in whatever interleaving. -/
theorem driverInv_of_run {cursor : EvdiCursor} {inputs : List DriverInput} {t : DriverState}
    (h : run driverStep (.start cursor) inputs = some t) : DriverInv t :=
  invariant_of_run DriverInv.step (DriverInv.start cursor) h

end Invariant

/-- A mode set, and a grab that is under way when another framebuffer is scanned out. -/
theorem driverInv_of_run_flip :
    let cursor : EvdiCursor := ⟨false, 0, 0, 0, 0, 0, 0, 0, 0, none⟩
    let front : EvdiFramebuffer := ⟨1, 2, 1, 8, 32, 0⟩
    let back : EvdiFramebuffer := ⟨2, 2, 1, 8, 32, 0⟩
    ∃ t, run driverStep (.start cursor)
        [.setScanoutBuffer (some front), .markDirty ⟨0, 0, 2, 1⟩, .grabpix ⟨1, 2, 1, 16⟩,
          .setScanoutBuffer (some back)] = some t ∧
      t.device.refs front = 1 ∧ t.device.refs back = 1 := by
  intro cursor front back
  refine ⟨_, rfl, ?_⟩
  have inv :=
    driverInv_of_run (show run driverStep (.start cursor) [.setScanoutBuffer (some front),
    .markDirty ⟨0, 0, 2, 1⟩, .grabpix ⟨1, 2, 1, 16⟩, .setScanoutBuffer (some back)] = some _
    from rfl)
  exact ⟨inv.refs front, inv.refs back⟩

/-! ## While the mode stays -/

section FixedMode

variable {s t : DriverState} {input : DriverInput} {width height : ℕ}

/-- A framebuffer that is set has this size. -/
def DriverInput.OfMode (width height : ℕ) : DriverInput → Prop
  | .setScanoutBuffer (some efb) => efb.width = width ∧ efb.height = height
  | _ => True

structure FixedMode (width height : ℕ) (s : DriverState) : Prop where
  fewDirts : s.device.painter.dirtyRects.length ≤ maxDirts
  scanout : ∀ efb, s.device.painter.scanoutFb = some efb →
    efb.width = width ∧ efb.height = height
  within : ∀ r ∈ s.device.painter.dirtyRects, r.Within width height

/-- Where the painter's framebuffer and damage are the same, or there is less of them. -/
theorem FixedMode.of_painter (mode : FixedMode width height s)
    (scanout : t.device.painter.scanoutFb = s.device.painter.scanoutFb ∨
      t.device.painter.scanoutFb = none)
    (dirts : t.device.painter.dirtyRects = s.device.painter.dirtyRects) :
    FixedMode width height t where
  fewDirts := dirts ▸ mode.fewDirts
  scanout := by
    intro efb hefb
    rcases scanout with same | none
    · exact mode.scanout efb (same ▸ hefb)
    · rw [none] at hefb
      cases hefb
  within := dirts ▸ mode.within

/-- What only merges the rectangles keeps the mode. -/
theorem FixedMode.merges (mode : FixedMode width height s) {rects : List DrmClipRect}
    (merges : Merging.Merges expandRect (fun _ _ => True) s.device.painter.dirtyRects rects)
    (scanout : t.device.painter.scanoutFb = s.device.painter.scanoutFb)
    (dirts : t.device.painter.dirtyRects = rects) : FixedMode width height t where
  fewDirts := dirts ▸ merges.length_le.trans mode.fewDirts
  scanout := fun efb hefb => mode.scanout efb (scanout ▸ hefb)
  within := dirts ▸ within_of_merges merges mode.within

/-- Without a file nothing is scanned out. -/
theorem FixedMode.disconnect (mode : FixedMode width height s) (file : DrmFile) :
    FixedMode width height { s with device := (s.device.disconnect file).1 } := by
  simp only [EvdiDevice.disconnect]
  split_ifs
  · exact mode
  · exact mode.of_painter (Or.inr rfl) (by simp)

/-- One case per critical section. -/
theorem FixedMode.step (mode : FixedMode width height s)
    (ofMode : input.OfMode width height) (step : driverStep s input = some t) :
    FixedMode width height t := by
  cases input with
  | connect allocated edidData edidLength skuAreaLimit file devIndex =>
      cases step
      simp only [EvdiDevice.connect]
      split_ifs <;> exact mode.of_painter (Or.inl rfl) rfl
  | disconnect file => cases step; exact mode.disconnect file
  | close file => cases step; exact mode.disconnect file
  | markDirty rect =>
      cases step
      simp only [EvdiDevice.markDirty]
      split
      · exact mode
      · next efb scanout =>
          obtain ⟨rfl, rfl⟩ := mode.scanout efb scanout
          exact
            { fewDirts := length_addDirtyRect_le mode.fewDirts _
              scanout := mode.scanout
              within := within_addDirtyRect mode.fewDirts mode.within
                (sanitizeRect_within _ _ _) }
  | setScanoutBuffer newfb =>
      cases step
      have painter := s.device.setScanoutBuffer_painter newfb
      refine ⟨painter ▸ mode.fewDirts, fun efb hefb => ?_, painter ▸ mode.within⟩
      rw [painter] at hefb
      cases hefb
      exact ofMode
  | sendUpdateReadyIfNeeded =>
      cases step
      simp only [EvdiDevice.sendUpdateReadyIfNeeded]
      split_ifs
      · exact mode.of_painter (Or.inl (by simp)) (by simp)
      · exact mode
  | findFile => cases step; exact mode.of_painter (Or.inl rfl) rfl
  | sendEvent event =>
      obtain ⟨-, _, -, rfl⟩ := driverStep_sendEvent step
      exact mode.of_painter (Or.inl rfl) rfl
  | listAddTail drmFilp event =>
      obtain ⟨-, rfl⟩ := driverStep_listAddTail step
      exact mode.of_painter (Or.inl rfl) rfl
  | modeChangedNotified => cases step; exact mode.of_painter (Or.inl rfl) rfl
  | cursor cursor => cases step; exact mode.of_painter (Or.inl rfl) rfl
  | requestUpdate =>
      cases step
      simp only [EvdiDevice.requestUpdate]
      split_ifs <;> exact mode.of_painter (Or.inl rfl) rfl
  | grabpix cmd =>
      rcases driverStep_grabpix step with ⟨_, _, -, merges, rfl⟩ | ⟨_, _, -, rfl⟩
      · exact mode.merges merges rfl rfl
      · exact ⟨Nat.zero_le _, mode.scanout, nofun⟩
  | grabbed efb =>
      obtain ⟨-, rfl⟩ := driverStep_grabbed step
      exact mode.of_painter (Or.inl (by simp)) (by simp)

/-- **All of a run.** -/
theorem FixedMode.run {inputs : List DriverInput} (mode : FixedMode width height s)
    (ofMode : ∀ input ∈ inputs, input.OfMode width height)
    (h : run driverStep s inputs = some t) : FixedMode width height t := by
  induction inputs generalizing s with
  | nil => cases h; exact mode
  | cons input inputs ih =>
      rw [run_cons, Option.bind_eq_some_iff] at h
      obtain ⟨s', step, rest⟩ := h
      exact ih (mode.step (ofMode input List.mem_cons_self) step)
        (fun i hi => ofMode i (List.mem_cons_of_mem _ hi)) rest

/-! ## What is marked, and what a grab reports -/

/-- The pixels that a step marks: those of the rectangle inside of the framebuffer that is
scanned out.  Without one the rectangle is skipped. -/
def DriverState.marks (s : DriverState) : DriverInput → Set Pos
  | .markDirty rect =>
      {p | ∃ efb, s.device.painter.scanoutFb = some efb ∧ p ∈ rect.span ∧ p ∈ efb.frame}
  | _ => ∅

/-- It is a grab that takes the damage. -/
def DriverState.takes (s : DriverState) : DriverInput → Bool
  | .grabpix cmd => (s.device.grabpix cmd).2.isOk
  | _ => false

/-- Steps that mark nothing leave the damage as it is. -/
theorem dirtyArea_of_same (same : t.device.painter.dirtyRects = s.device.painter.dirtyRects)
    (none : s.marks input = ∅) :
    dirtyArea s.device.painter.dirtyRects ∪ s.marks input ⊆
      dirtyArea t.device.painter.dirtyRects := by
  rw [same, none, Set.union_empty]

/-- **What is marked is damage** until a grab takes it: one case per critical section. -/
theorem dirtyArea_of_step (inv : DriverInv s) (step : driverStep s input = some t)
    (untaken : s.takes input = false) :
    dirtyArea s.device.painter.dirtyRects ∪ s.marks input ⊆
      dirtyArea t.device.painter.dirtyRects := by
  cases input with
  | connect allocated edidData edidLength skuAreaLimit file devIndex =>
      cases step
      refine dirtyArea_of_same ?_ rfl
      simp only [EvdiDevice.connect]
      split_ifs <;> rfl
  | disconnect file =>
      cases step
      exact dirtyArea_of_same (s.device.disconnect_dirtyRects file) rfl
  | close file =>
      cases step
      exact dirtyArea_of_same (s.device.disconnect_dirtyRects file) rfl
  | markDirty rect =>
      cases step
      rintro p (dirty | ⟨efb, scanout, spanned, inFrame⟩)
      · simp only [EvdiDevice.markDirty]
        split
        · exact dirty
        · exact subset_dirtyArea_addDirtyRect inv.fewDirts _ (Or.inl dirty)
      · simp only [EvdiDevice.markDirty, scanout]
        exact subset_dirtyArea_addDirtyRect inv.fewDirts _
          (Or.inr (mem_pixels_sanitizeRect.mpr ⟨spanned, inFrame.1.2, inFrame.2.2⟩))
  | setScanoutBuffer newfb =>
      cases step
      exact dirtyArea_of_same (by simp) rfl
  | sendUpdateReadyIfNeeded =>
      cases step
      refine dirtyArea_of_same ?_ rfl
      simp only [EvdiDevice.sendUpdateReadyIfNeeded]
      split_ifs <;> simp
  | findFile => cases step; exact dirtyArea_of_same rfl rfl
  | sendEvent event =>
      obtain ⟨-, _, -, rfl⟩ := driverStep_sendEvent step
      exact dirtyArea_of_same rfl rfl
  | listAddTail drmFilp event =>
      obtain ⟨-, rfl⟩ := driverStep_listAddTail step
      exact dirtyArea_of_same rfl rfl
  | modeChangedNotified => cases step; exact dirtyArea_of_same rfl rfl
  | cursor cursor => cases step; exact dirtyArea_of_same rfl rfl
  | requestUpdate =>
      cases step
      refine dirtyArea_of_same ?_ rfl
      simp only [EvdiDevice.requestUpdate]
      split_ifs <;> rfl
  | grabpix cmd =>
      rcases driverStep_grabpix step with ⟨_, _, -, merges, rfl⟩ | ⟨_, _, taken, rfl⟩
      · rintro p (dirty | ⟨⟨⟩⟩)
        exact dirtyArea_subset_of_merges merges dirty
      · rw [DriverState.takes, taken] at untaken
        cases untaken
  | grabbed efb =>
      obtain ⟨-, rfl⟩ := driverStep_grabbed step
      exact dirtyArea_of_same (by simp) rfl

/-- All that is marked in a run is damage at its end, when no grab took it. -/
theorem marks_of_run {inputs : List DriverInput} (inv : DriverInv s)
    (h : run driverStep s inputs = some t)
    (untaken : EachStep driverStep (fun _ s input _ => s.takes input = false) s inputs) :
    dirtyArea s.device.painter.dirtyRects ⊆ dirtyArea t.device.painter.dirtyRects ∧
      EachStep driverStep
        (fun _ s input _ => s.marks input ⊆ dirtyArea t.device.painter.dirtyRects)
        s inputs := by
  induction inputs generalizing s with
  | nil => cases h; exact ⟨subset_rfl, eachStep_nil _⟩
  | cons input inputs ih =>
      rw [run_cons, Option.bind_eq_some_iff] at h
      obtain ⟨s', step, rest⟩ := h
      obtain ⟨first, others⟩ := eachStep_cons.mp untaken s' step
      have grown := dirtyArea_of_step inv step first
      obtain ⟨kept, marked⟩ := ih (inv.step step) rest others
      refine ⟨Set.subset_union_left.trans (grown.trans kept),
        eachStep_cons.mpr fun u hu => ?_⟩
      obtain rfl : s' = u := Option.some.inj (step.symm.trans hu)
      exact ⟨Set.subset_union_right.trans (grown.trans kept), marked⟩

/-- **What a grab reports**: while the mode stays, whatever is marked, in whatever order
and by whom, there are no more rectangles than the client has room for, each is inside of
the framebuffer, and together they cover what was marked since `s`, after which no grab
took anything, and what was damage there. -/
theorem grabpix_of_run {cursor : EvdiCursor} {inputs inputs' : List DriverInput}
    (h : PartialStep.run driverStep (.start cursor) inputs = some s)
    (h' : PartialStep.run driverStep s inputs' = some t)
    (ofMode : ∀ input ∈ inputs ++ inputs', input.OfMode width height)
    (untaken : EachStep driverStep (fun _ s input _ => s.takes input = false) s inputs')
    {cmd : EvdiDevice.Grabpix} {device : EvdiDevice} {efb : EvdiFramebuffer}
    {rects : List DrmClipRect} (taken : t.device.grabpix cmd = (device, .ok (efb, rects))) :
    (efb.width = width ∧ efb.height = height) ∧ rects.length ≤ cmd.numRects ∧
      (∀ r ∈ rects, r.Within width height) ∧
      EachStep driverStep (fun _ s input _ => s.marks input ⊆ dirtyArea rects) s inputs' ∧
      dirtyArea s.device.painter.dirtyRects ⊆ dirtyArea rects ∧
      device.painter.dirtyRects = [] := by
  have start : FixedMode width height (.start cursor) := ⟨Nat.zero_le _, nofun, nofun⟩
  have mode := (start.run (fun i hi => ofMode i (List.mem_append_left _ hi)) h).run
    (fun i hi => ofMode i (List.mem_append_right _ hi)) h'
  obtain ⟨kept, marked⟩ := marks_of_run (driverInv_of_run h) h' untaken
  rcases t.device.grabpix_cases cmd with
    ⟨_, _, failed, -⟩ | ⟨_, _, taken', scanout, merges, few⟩
  · rw [taken] at failed
    cases failed
  · rw [taken] at taken'
    cases taken'
    have reported := dirtyArea_subset_of_merges merges
    refine ⟨mode.scanout efb scanout, few, within_of_merges merges mode.within, ?_,
      kept.trans reported, rfl⟩
    intro before input after s₁ s₂ split hrun hstep
    exact (marked before input after s₁ s₂ split hrun hstep).trans reported

/-- Two marks: one goes beyond the frame, and one has its corners the other way round. -/
theorem grabpix_of_run_twoMarks :
    let front : EvdiFramebuffer := ⟨1, 4, 2, 16, 32, 0⟩
    let marked : List DriverInput := [.markDirty ⟨0, 0, 9, 1⟩, .markDirty ⟨3, 2, 1, 1⟩]
    ∃ s t device rects,
      run driverStep (.start ⟨false, 0, 0, 0, 0, 0, 0, 0, 0, none⟩)
          [.setScanoutBuffer (some front)] = some s ∧
        run driverStep s marked = some t ∧
        t.device.grabpix ⟨1, 4, 2, 1⟩ = (device, .ok (front, rects)) ∧
        rects.length ≤ (1 : ℤ) ∧ (∀ r ∈ rects, r.Within 4 2) ∧
        ((3, 0) : Pos) ∈ dirtyArea rects ∧ ((2, 1) : Pos) ∈ dirtyArea rects := by
  intro front marked
  obtain ⟨s, h, scanout⟩ : ∃ s,
      run driverStep (.start ⟨false, 0, 0, 0, 0, 0, 0, 0, 0, none⟩)
          [.setScanoutBuffer (some front)] = some s ∧
        s.device.painter.scanoutFb = some front := ⟨_, rfl, rfl⟩
  let s' : DriverState := { s with device := s.device.markDirty ⟨0, 0, 9, 1⟩ }
  let t : DriverState := { s' with device := s'.device.markDirty ⟨3, 2, 1, 1⟩ }
  have scanout' : s'.device.painter.scanoutFb = some front :=
    (s.device.markDirty_scanoutFb _).trans scanout
  have h' : run driverStep s marked = some t := rfl
  have untaken : EachStep driverStep (fun _ s input _ => s.takes input = false) s marked :=
    eachStep_of_forall (by simp [marked, DriverState.takes]) s
  obtain ⟨device, rects, taken, -⟩ := EvdiDevice.grabpix_of_scanout
    ((s'.device.markDirty_scanoutFb _).trans scanout')
    (show (⟨1, 4, 2, 1⟩ : EvdiDevice.Grabpix).mode = _ from rfl) (by decide)
  obtain ⟨-, few, within, covered, -⟩ := grabpix_of_run h h'
    (show ∀ input ∈ _, DriverInput.OfMode 4 2 input by
      simp [marked, front, DriverInput.OfMode]) untaken taken
  refine ⟨s, t, device, rects, h, h', taken, few, within, ?_, ?_⟩
  · exact covered [] _ [.markDirty ⟨3, 2, 1, 1⟩] s s' rfl rfl rfl
      ⟨front, scanout, by decide, by decide⟩
  · exact covered [.markDirty ⟨0, 0, 9, 1⟩] _ [] s' t rfl rfl rfl
      ⟨front, scanout', by decide, by decide⟩

end FixedMode

/-! ## What the kernel calls -/

/-- The function is a sequence of critical sections. -/
def Sections (f : EvdiDevice → EvdiDevice) : Prop :=
  ∀ s : DriverState,
    ∃ inputs, run driverStep s inputs = some { s with device := f s.device }

/-- One critical section. -/
theorem Sections.one {f : EvdiDevice → EvdiDevice} (input : DriverInput)
    (step : ∀ s : DriverState, driverStep s input = some { s with device := f s.device }) :
    Sections f := fun s => ⟨[input], by rw [run_cons, step]; rfl⟩

/-- None at all. -/
theorem Sections.none : Sections id := fun _ => ⟨[], rfl⟩

/-- One function after the other. -/
theorem Sections.comp {f g : EvdiDevice → EvdiDevice} (hg : Sections g) (hf : Sections f) :
    Sections fun evdi => g (f evdi) := by
  intro s
  obtain ⟨first, hfirst⟩ := hf s
  obtain ⟨second, hsecond⟩ := hg { s with device := f s.device }
  exact ⟨first ++ second, by rw [run_append, hfirst]; exact hsecond⟩

/-- The section it starts with may be chosen by the state. -/
theorem Sections.choose {f : EvdiDevice → EvdiDevice}
    (h : ∀ evdi, ∃ g, Sections g ∧ f evdi = g evdi) : Sections f := by
  intro s
  obtain ⟨g, sections, same⟩ := h s.device
  rw [same]
  exact sections s

section KernelSide

/-- `evdi_painter_mark_dirty` is one section, -/
theorem sections_markDirty (rect : DrmClipRect) :
    Sections fun evdi => evdi.markDirty rect :=
  .one (.markDirty rect) fun _ => rfl

/-- `evdi_painter_set_scanout_buffer` another, -/
theorem sections_setScanoutBuffer (newfb : Option EvdiFramebuffer) :
    Sections fun evdi => evdi.setScanoutBuffer newfb :=
  .one (.setScanoutBuffer newfb) fun _ => rfl

/-- and so is `evdi_painter_send_update_ready_if_needed`. -/
theorem sections_sendUpdateReadyIfNeeded :
    Sections fun evdi => evdi.sendUpdateReadyIfNeeded :=
  .one .sendUpdateReadyIfNeeded fun _ => rfl

/-- A sender that nothing comes between. -/
theorem sections_sendEvent (event : Notification) :
    Sections fun evdi => evdi.sendEvent event.1 := by
  intro s
  cases connected : s.device.painter.drmFilp with
  | none =>
      refine ⟨[.findFile], ?_⟩
      simp [run_cons, driverStep, EvdiDevice.sendEvent, connected]
  | some file =>
      refine ⟨[.findFile, .sendEvent event, .listAddTail file event], ?_⟩
      simp [run_cons, driverStep, EvdiDevice.sendEvent, connected]

/-- `evdi_painter_dpms_notify`, which is a sender. -/
theorem sections_dpms (mode : ℤ) : Sections fun evdi => evdi.sendEvent (.dpms mode) :=
  sections_sendEvent ⟨.dpms mode, by rintro ⟨⟩⟩

/-- `evdi_painter_mode_changed_notify` sends, and then says that there was a modeset. -/
theorem sections_modeChangedNotify (hdisplay vdisplay vrefresh : ℤ) :
    Sections fun evdi => evdi.modeChangedNotify hdisplay vdisplay vrefresh := by
  refine .choose fun evdi => ?_
  have notified : Sections fun evdi => { evdi with painter.needsFullModeset := false } :=
    .one .modeChangedNotified fun _ => rfl
  cases scanout : evdi.painter.scanoutFb with
  | none => exact ⟨id, .none, by simp [EvdiDevice.modeChangedNotify, scanout]⟩
  | some efb =>
      have send := sections_sendEvent ⟨.modeChanged
        ⟨hdisplay, vdisplay, vrefresh, efb.bitsPerPixel, efb.pixelFormat⟩, by rintro ⟨⟩⟩
      exact ⟨_, notified.comp send, by simp [EvdiDevice.modeChangedNotify, scanout]⟩

/-- A section of the painter is between reading the size and marking. -/
theorem sections_markFullScreenDirty : Sections EvdiDevice.markFullScreenDirty :=
  .choose fun evdi =>
    ⟨_, sections_sendUpdateReadyIfNeeded.comp (sections_markDirty evdi.framebufferSize),
      rfl⟩

/-- The cursor changes first, whether the frame is marked or an event sent. -/
theorem sections_crtcCursorSet (enableCursorBlending : Bool)
    (vmap : EvdiGemObject → Except ℤ EvdiGemObject) (obj : Option EvdiGemObject)
    (width height : ℕ) (hotX hotY : ℤ) (format bufferHandle : ℕ) :
    Sections fun evdi => evdi.crtcCursorSet enableCursorBlending vmap obj width height
      hotX hotY format bufferHandle := by
  refine .choose fun evdi => ?_
  have set : Sections fun evdi' => { evdi' with
      cursor :=
        cursorSet vmap evdi.cursor obj width height hotX hotY format (4 * width) } :=
    .one (.cursor _) fun _ => rfl
  cases enableCursorBlending with
  | true => exact ⟨_, sections_markFullScreenDirty.comp set, rfl⟩
  | false =>
      have send : Sections fun evdi => evdi.sendCursorSet bufferHandle :=
        .choose fun evdi => ⟨_, sections_sendEvent ⟨.cursorSet _, by rintro ⟨⟩⟩, rfl⟩
      exact ⟨_, send.comp set, rfl⟩

/-- The same when it moves. -/
theorem sections_crtcCursorMove (enableCursorBlending : Bool) (x y : ℤ) :
    Sections fun evdi => evdi.crtcCursorMove enableCursorBlending x y := by
  refine .choose fun evdi => ?_
  have move : Sections fun evdi' => { evdi' with cursor := cursorMove evdi.cursor x y } :=
    .one (.cursor _) fun _ => rfl
  cases enableCursorBlending with
  | true => exact ⟨_, sections_markFullScreenDirty.comp move, rfl⟩
  | false =>
      have send : Sections fun evdi => evdi.sendCursorMove :=
        .choose fun evdi => ⟨_, sections_sendEvent ⟨.cursorMove _, by rintro ⟨⟩⟩, rfl⟩
      exact ⟨_, send.comp move, rfl⟩

/-- Up to two senders, and the update that was asked for. -/
theorem sections_crtcAtomicFlush (modeChanged active activeChanged : Bool)
    (hdisplay vdisplay vrefresh : ℤ) :
    Sections fun evdi => evdi.crtcAtomicFlush modeChanged active activeChanged
      hdisplay vdisplay vrefresh := by
  have mode : Sections fun evdi => if modeChanged && active then
      evdi.modeChangedNotify hdisplay vdisplay vrefresh else evdi := by
    cases modeChanged && active with
    | true => exact sections_modeChangedNotify hdisplay vdisplay vrefresh
    | false => exact .none
  have dpms : Sections fun evdi => if activeChanged then
      evdi.sendEvent (.dpms (if active then 0 else 3)) else evdi := by
    cases activeChanged with
    | true => exact sections_dpms _
    | false => exact .none
  exact (sections_sendUpdateReadyIfNeeded.comp dpms).comp mode

/-- A sender, a page flip, and the damage of the whole frame. -/
theorem sections_planeAtomicUpdate (oldCrtc crtc : Bool)
    (oldFb fb : Option EvdiFramebuffer) :
    Sections fun evdi => evdi.planeAtomicUpdate oldCrtc crtc oldFb fb := by
  have dpms : Sections fun evdi => if !oldCrtc && crtc then evdi.sendEvent (.dpms 0)
      else if oldCrtc && !crtc then evdi.sendEvent (.dpms 3) else evdi := by
    cases oldCrtc <;> cases crtc
    · exact .none
    · exact sections_dpms 0
    · exact sections_dpms 3
    · exact .none
  cases fb with
  | none => exact dpms
  | some efb =>
      have update : Sections fun evdi =>
          if some efb ≠ oldFb ∨ evdi.painter.needsFullModeset = true then
            (evdi.setScanoutBuffer (some efb)).markDirty
              ⟨0, 0, u16 efb.width, u16 efb.height⟩
          else if evdi.painter.dirtyRects.length = 0 then
            evdi.markDirty ⟨0, 0, u16 efb.width, u16 efb.height⟩
          else evdi := by
        refine .choose fun evdi => ?_
        split_ifs
        · exact ⟨_, (sections_markDirty _).comp (sections_setScanoutBuffer (some efb)), rfl⟩
        · exact ⟨_, sections_markDirty _, rfl⟩
        · exact ⟨_, .none, rfl⟩
      exact update.comp dpms

/-- A page flip, and the damage of what was drawn. -/
theorem sections_handleDamage (efb : EvdiFramebuffer) (active : Bool)
    (x y width height : ℤ) :
    Sections fun evdi => evdi.handleDamage efb active x y width height := by
  cases active with
  | true => exact (sections_markDirty _).comp (sections_setScanoutBuffer (some efb))
  | false => exact .none

/-- One section for each clip. -/
theorem sections_userFramebufferDirty (clips : List DrmClipRect) :
    Sections fun evdi => evdi.userFramebufferDirty clips := by
  induction clips with
  | nil => exact .none
  | cons clip clips ih => exact ih.comp (sections_markDirty clip)

end KernelSide

/-! ## Events and files -/

section Files

variable {s t : DriverState} {input : DriverInput} {file : DrmFile}

/-- It connects this file. -/
def DriverInput.ConnectsAs (file : DrmFile) : DriverInput → Prop
  | .connect _ _ _ _ file' _ => file' = file
  | _ => False

/-- The events that were put into the queue of a file. -/
def eventsTo (file : DrmFile) (s : DriverState) : List (DrmFile × EvdiEvent) :=
  s.device.events.filter fun e => e.1 = file

/-- The events of senders that are about to do so. -/
def sendingTo (file : DrmFile) (s : DriverState) : List (DrmFile × EvdiEvent) :=
  (s.sending.map fun e => (e.1, e.2.1)).filter fun e => e.1 = file

/-- What a step does to a file that is not connected: only `connect` connects it, and
events come from those who are about to send them. -/
structure LateEvents (file : DrmFile) (s : DriverState) (input : DriverInput)
    (t : DriverState) : Prop where
  unconnected : t.device.painter.drmFilp = some file → input.ConnectsAs file
  late : ∃ late, eventsTo file t = eventsTo file s ++ late ∧
    (late ++ sendingTo file t).Perm (sendingTo file s)

/-- Nothing is sent, or only to others. -/
theorem LateEvents.silent (unconnected : s.device.painter.drmFilp ≠ some file)
    (drmFilp : t.device.painter.drmFilp = s.device.painter.drmFilp)
    (events : eventsTo file t = eventsTo file s)
    (sending : sendingTo file t = sendingTo file s) :
    LateEvents file s input t where
  unconnected := fun h => absurd (drmFilp ▸ h) unconnected
  late := ⟨[], by rw [events, List.append_nil], by rw [sending, List.nil_append]⟩

/-- Another file connects. -/
theorem LateEvents.connect (unconnected : s.device.painter.drmFilp ≠ some file)
    (allocated : Bool) (edidData : List UInt8) (edidLength skuAreaLimit : ℕ)
    (file' : DrmFile) (devIndex : ℤ) :
    LateEvents file s (.connect allocated edidData edidLength skuAreaLimit file' devIndex)
      { s with device :=
          (s.device.connect allocated edidData edidLength skuAreaLimit file' devIndex).1 } := by
  simp only [EvdiDevice.connect]
  split_ifs
  case neg =>
    exact ⟨Option.some.inj, [], (List.append_nil _).symm, .refl _⟩
  all_goals exact .silent unconnected rfl rfl rfl

/-- Some file disconnects, or this one does again. -/
theorem LateEvents.disconnect (unconnected : s.device.painter.drmFilp ≠ some file)
    (file' : DrmFile) :
    LateEvents file s input { s with device := (s.device.disconnect file').1 } := by
  simp only [EvdiDevice.disconnect]
  split_ifs
  · exact .silent unconnected rfl rfl rfl
  · exact ⟨nofun, [], by simp [eventsTo], .refl _⟩

/-- The update-ready event goes to the file that is connected. -/
theorem LateEvents.sendUpdateReady (unconnected : s.device.painter.drmFilp ≠ some file) :
    LateEvents file s .sendUpdateReadyIfNeeded
      { s with device := s.device.sendUpdateReadyIfNeeded } := by
  simp only [EvdiDevice.sendUpdateReadyIfNeeded]
  split_ifs
  · refine .silent unconnected (by simp) ?_ rfl
    have others :
        ∀ e ∈ (s.device.painter.drmFilp.map fun f => (f, EvdiEvent.updateReady)).toList,
        ¬e.1 = file := by
      rintro e he rfl
      obtain ⟨f, connected, rfl⟩ := Option.map_eq_some_iff.mp (Option.mem_toList.mp he)
      exact unconnected connected
    simp only [eventsTo, EvdiDevice.sendEvent_events, List.filter_append]
    rw [List.filter_eq_nil_iff.mpr fun e he => decide_eq_true_iff.not.mpr (others e he),
      List.append_nil]
  · exact .silent unconnected rfl rfl rfl

/-- A sender reads the file that is connected, so it is another one. -/
theorem LateEvents.sendEvent (unconnected : s.device.painter.drmFilp ≠ some file)
    {event : Notification} (step : driverStep s (.sendEvent event) = some t) :
    LateEvents file s (.sendEvent event) t := by
  obtain ⟨-, other, connected, rfl⟩ := driverStep_sendEvent step
  have different : other ≠ file := fun same => unconnected (same ▸ connected)
  exact .silent unconnected rfl rfl (by simp [sendingTo, different])

/-- The events that are appended are those that were about to be. -/
theorem LateEvents.listAddTail (unconnected : s.device.painter.drmFilp ≠ some file)
    {other : DrmFile} {event : Notification}
    (step : driverStep s (.listAddTail other event) = some t) :
    LateEvents file s (.listAddTail other event) t := by
  obtain ⟨sending, rfl⟩ := driverStep_listAddTail step
  refine ⟨fun h => absurd h unconnected, [(other, event.1)].filter fun e => e.1 = file,
    List.filter_append .., ?_⟩
  have taken := List.perm_cons_erase sending
  have perm := ((taken.map fun e => (e.1, e.2.1)).filter fun e => e.1 = file).symm
  rw [List.map_cons, ← List.singleton_append, List.filter_append] at perm
  exact perm

/-- One case per critical section. -/
theorem lateEvents_of_step (unconnected : s.device.painter.drmFilp ≠ some file)
    (step : driverStep s input = some t) : LateEvents file s input t := by
  cases input with
  | connect allocated edidData edidLength skuAreaLimit file' devIndex =>
      cases step
      exact .connect unconnected allocated edidData edidLength skuAreaLimit file' devIndex
  | disconnect file' => cases step; exact .disconnect unconnected file'
  | close file' => cases step; exact .disconnect unconnected file'
  | markDirty rect =>
      cases step
      exact .silent unconnected (by simp) (by simp [eventsTo]) rfl
  | setScanoutBuffer newfb =>
      cases step
      exact .silent unconnected (by simp)
        (by simp [eventsTo, EvdiDevice.setScanoutBuffer]) rfl
  | sendUpdateReadyIfNeeded => cases step; exact .sendUpdateReady unconnected
  | findFile => cases step; exact .silent unconnected rfl rfl rfl
  | sendEvent event => exact .sendEvent unconnected step
  | listAddTail other event => exact .listAddTail unconnected step
  | modeChangedNotified => cases step; exact .silent unconnected rfl rfl rfl
  | cursor cursor => cases step; exact .silent unconnected rfl rfl rfl
  | requestUpdate =>
      cases step
      simp only [EvdiDevice.requestUpdate]
      split_ifs <;> exact .silent unconnected rfl rfl rfl
  | grabpix cmd =>
      rcases driverStep_grabpix step with ⟨_, _, -, -, rfl⟩ | ⟨_, _, -, rfl⟩ <;>
        exact .silent unconnected rfl rfl rfl
  | grabbed efb =>
      obtain ⟨-, rfl⟩ := driverStep_grabbed step
      exact .silent unconnected rfl rfl rfl

/-- A file that is not connected gets the events only that were about to be sent. -/
theorem lateEvents_of_run {inputs : List DriverInput}
    (unconnected : s.device.painter.drmFilp ≠ some file)
    (after : ∀ input ∈ inputs, ¬input.ConnectsAs file)
    (h : run driverStep s inputs = some t) :
    (∃ late, eventsTo file t = eventsTo file s ++ late ∧
        (late ++ sendingTo file t).Perm (sendingTo file s)) ∧
      t.device.painter.drmFilp ≠ some file := by
  induction inputs generalizing s with
  | nil => cases h; exact ⟨⟨[], (List.append_nil _).symm, .refl _⟩, unconnected⟩
  | cons input inputs ih =>
      rw [run_cons, Option.bind_eq_some_iff] at h
      obtain ⟨s', step, rest⟩ := h
      obtain ⟨unconnected', first, events, sent⟩ := lateEvents_of_step unconnected step
      obtain ⟨⟨second, events', sent'⟩, still⟩ :=
        ih (fun h => after input List.mem_cons_self (unconnected' h))
          (fun i hi => after i (List.mem_cons_of_mem _ hi)) rest
      refine ⟨⟨first ++ second, by rw [events', events, List.append_assoc], ?_⟩, still⟩
      rw [List.append_assoc]
      exact (sent'.append_left first).trans sent

/-- **What a file gets after it is closed**, until it is connected anew: the events of the
senders that had read it before and did not append theirs yet, each at most once, and no
others.  So it gets none when there were no such senders. -/
theorem eventsTo_closed {u : DriverState} {inputs : List DriverInput}
    (closed : driverStep s (.close file) = some t)
    (after : ∀ input ∈ inputs, ¬input.ConnectsAs file)
    (h : run driverStep t inputs = some u) :
    (∃ late, eventsTo file u = eventsTo file s ++ late ∧
        (late ++ sendingTo file u).Perm (sendingTo file s)) ∧
      u.device.painter.drmFilp ≠ some file := by
  have unconnected : t.device.painter.drmFilp ≠ some file := by
    cases closed
    simp only [EvdiDevice.close, EvdiDevice.disconnect]
    split_ifs with other
    · exact Ne.symm other
    · exact (Option.some_ne_none file).symm
  have events : eventsTo file t = eventsTo file s := by
    cases closed
    simp only [EvdiDevice.close, EvdiDevice.disconnect, eventsTo]
    split_ifs <;> simp
  have sending : sendingTo file t = sendingTo file s := by
    cases closed
    rfl
  exact events ▸ sending ▸ lateEvents_of_run unconnected after h

/-- The display is closed between the look at `drm_filp` and the end of a sender, and a
mode is set later: its event reaches no one. -/
theorem eventsTo_closed_late :
    let dpms : Notification := ⟨.dpms 3, by rintro ⟨⟩⟩
    let connected : DriverState :=
      { DriverState.start ⟨false, 0, 0, 0, 0, 0, 0, 0, 0, none⟩ with
        device.painter.drmFilp := some 7 }
    ∃ s t u, run driverStep connected [.findFile, .sendEvent dpms] = some s ∧
      driverStep s (.close 7) = some t ∧
      run driverStep t [.listAddTail 7 dpms, .findFile] = some u ∧
      ∃ late, eventsTo 7 u = eventsTo 7 s ++ late ∧
        (late ++ sendingTo 7 u).Perm [(7, .dpms 3)] := by
  intro dpms connected
  obtain ⟨s, sent, about⟩ : ∃ s,
      run driverStep connected [.findFile, .sendEvent dpms] = some s ∧
        s = { connected with sending := [(7, dpms)] } := ⟨_, rfl, rfl⟩
  subst about
  have after :
      ∀ input ∈ [DriverInput.listAddTail 7 dpms, .findFile], ¬input.ConnectsAs 7 := by
    simp [DriverInput.ConnectsAs]
  exact ⟨_, _, _, sent, rfl, rfl, (eventsTo_closed rfl after rfl).1⟩

end Files

end Kernelflut.Driver
