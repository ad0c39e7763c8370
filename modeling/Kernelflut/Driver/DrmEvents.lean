import Kernelflut.Foundations.LittleEndian

/-!
# The events of the evdi driver

The driver tells the process that connected about updates, modes and the cursor by
events it can `read`: a `struct drm_event` of a type and the length of the whole,
followed by the data of its type.  `EvdiEvent` are the events, and `bytes` what is
read of one, laid out as `evdi_drm.h` declares it.
-/

namespace Kernelflut.Driver

open LittleEndian MachineInt

/-- `struct drm_evdi_event_mode_changed` -/
structure EvdiEventModeChanged where
  hdisplay : ℤ
  vdisplay : ℤ
  vrefresh : ℤ
  bitsPerPixel : ℤ
  pixelFormat : ℕ
  deriving DecidableEq, Repr

/-- `struct drm_evdi_event_cursor_set` -/
structure EvdiEventCursorSet where
  hotX : ℤ
  hotY : ℤ
  width : ℕ
  height : ℕ
  enabled : ℕ
  bufferHandle : ℕ
  bufferLength : ℕ
  pixelFormat : ℕ
  stride : ℕ
  deriving DecidableEq, Repr

/-- `struct drm_evdi_event_cursor_move` -/
structure EvdiEventCursorMove where
  x : ℤ
  y : ℤ
  deriving DecidableEq, Repr

inductive EvdiEvent where
  | updateReady
  | dpms (mode : ℤ)
  | modeChanged (event : EvdiEventModeChanged)
  | crtcState (state : ℤ)
  | cursorSet (event : EvdiEventCursorSet)
  | cursorMove (event : EvdiEventCursorMove)
  deriving DecidableEq, Repr

/-- `#define DRM_EVDI_EVENT_UPDATE_READY 0x80000000` -/
def drmEvdiEventUpdateReady : ℕ := 0x80000000
/-- `#define DRM_EVDI_EVENT_DPMS 0x80000001` -/
def drmEvdiEventDpms : ℕ := 0x80000001
/-- `#define DRM_EVDI_EVENT_MODE_CHANGED 0x80000002` -/
def drmEvdiEventModeChanged : ℕ := 0x80000002
/-- `#define DRM_EVDI_EVENT_CRTC_STATE 0x80000003` -/
def drmEvdiEventCrtcState : ℕ := 0x80000003
/-- `#define DRM_EVDI_EVENT_CURSOR_SET 0x80000004` -/
def drmEvdiEventCursorSet : ℕ := 0x80000004
/-- `#define DRM_EVDI_EVENT_CURSOR_MOVE 0x80000005` -/
def drmEvdiEventCursorMove : ℕ := 0x80000005

namespace EvdiEvent

/-- The `type` the painter sends it with. -/
def type : EvdiEvent → ℕ
  | updateReady => drmEvdiEventUpdateReady
  | dpms _ => drmEvdiEventDpms
  | modeChanged _ => drmEvdiEventModeChanged
  | crtcState _ => drmEvdiEventCrtcState
  | cursorSet _ => drmEvdiEventCursorSet
  | cursorMove _ => drmEvdiEventCursorMove

/-- The fields after the `struct drm_event`. -/
def payload : EvdiEvent → List (List UInt8)
  | updateReady => []
  | dpms mode => [intBytes 4 mode]
  | modeChanged event =>
      [intBytes 4 event.hdisplay, intBytes 4 event.vdisplay, intBytes 4 event.vrefresh,
        intBytes 4 event.bitsPerPixel, natBytes 4 event.pixelFormat]
  | crtcState state => [intBytes 4 state]
  | cursorSet event =>
      [intBytes 4 event.hotX, intBytes 4 event.hotY, natBytes 4 event.width,
        natBytes 4 event.height, natBytes 1 event.enabled,
        -- The `uint32_t` after it is aligned.
        [0, 0, 0],
        natBytes 4 event.bufferHandle, natBytes 4 event.bufferLength,
        natBytes 4 event.pixelFormat, natBytes 4 event.stride]
  | cursorMove event => [intBytes 4 event.x, intBytes 4 event.y]

/-- The `length`: the `sizeof` of the struct of its type. -/
def length : EvdiEvent → ℕ
  | updateReady => 8
  | dpms _ => 12
  | modeChanged _ => 28
  | crtcState _ => 12
  | cursorSet _ => 44
  | cursorMove _ => 16

def fields (event : EvdiEvent) : List (List UInt8) :=
  natBytes 4 event.type :: natBytes 4 event.length :: event.payload

def bytes (event : EvdiEvent) : List UInt8 := event.fields.flatten

/-- The fields are values of their types. -/
def WellFormed : EvdiEvent → Prop
  | updateReady => True
  | dpms mode => InRange 32 mode
  | modeChanged event =>
      InRange 32 event.hdisplay ∧ InRange 32 event.vdisplay ∧ InRange 32 event.vrefresh ∧
        InRange 32 event.bitsPerPixel ∧ event.pixelFormat < 256 ^ 4
  | crtcState state => InRange 32 state
  | cursorSet event =>
      InRange 32 event.hotX ∧ InRange 32 event.hotY ∧ event.width < 256 ^ 4 ∧
        event.height < 256 ^ 4 ∧ event.enabled < 256 ^ 1 ∧ event.bufferHandle < 256 ^ 4 ∧
        event.bufferLength < 256 ^ 4 ∧ event.pixelFormat < 256 ^ 4 ∧ event.stride < 256 ^ 4
  | cursorMove event => InRange 32 event.x ∧ InRange 32 event.y

/-- The `length` of an event is the number of its bytes. -/
@[simp] theorem length_bytes (event : EvdiEvent) : event.bytes.length = event.length := by
  cases event <;> rfl

/-- An event is never empty, so the library gets ahead with each. -/
theorem length_pos (event : EvdiEvent) : 0 < event.length := by
  cases event <;> exact Nat.succ_pos _

/-- The `length` fits its field, -/
theorem length_lt (event : EvdiEvent) : event.length < 256 ^ 4 := by
  cases event <;> simp only [length] <;> norm_num

/-- and so does the `type`. -/
theorem type_lt (event : EvdiEvent) : event.type < 256 ^ 4 := by
  cases event <;>
    simp only [type, drmEvdiEventUpdateReady, drmEvdiEventDpms, drmEvdiEventModeChanged,
      drmEvdiEventCrtcState, drmEvdiEventCursorSet, drmEvdiEventCursorMove] <;>
    norm_num

end EvdiEvent

end Kernelflut.Driver
