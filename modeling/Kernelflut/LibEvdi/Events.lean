import Kernelflut.Driver.DrmEvents
import Kernelflut.Evdi.Wait

/-!
# How libevdi handles events

`evdi_handle_events` reads whatever events there are into a buffer on the stack and
goes through it: it looks at the type of the event at `i`, calls the handler the
program has registered for it, and advances by the event's length.

A handler takes the data of its event and acts on the state `σ` of the program.
The loop has no other bound than what it reads, so it takes fuel; an access outside
of the buffer, or no end within the fuel, is `none`.  `events_handled_in_order`
says that this does not happen with the events the driver sends, and that they are
handled once each, in their order and with the fields the driver gave them.

The handler that kernelflut registers is the one of `Kernelflut.Evdi.Wait`, and
`evdiHandleEvents_wait` is the step of that model, with the bytes.
-/

namespace Kernelflut.LibEvdi

open Kernelflut.Driver LittleEndian MachineInt

universe u

/-- `struct evdi_mode` -/
structure EvdiMode where
  width : ℤ
  height : ℤ
  refreshRate : ℤ
  bitsPerPixel : ℤ
  pixelFormat : ℕ
  deriving DecidableEq, Repr

/-- `struct evdi_cursor_set`, the buffer being a copy of the cursor's. -/
structure EvdiCursorSet where
  hotX : ℤ
  hotY : ℤ
  width : ℕ
  height : ℕ
  enabled : ℕ
  bufferLength : ℕ
  buffer : Option (List UInt8)
  pixelFormat : ℕ
  stride : ℕ
  deriving DecidableEq, Repr

/-- `struct evdi_cursor_move` -/
structure EvdiCursorMove where
  x : ℤ
  y : ℤ
  deriving DecidableEq, Repr

/-- `struct evdi_event_context`, the handlers acting on the program's state. -/
structure EvdiEventContext (σ : Type u) where
  dpmsHandler : Option (ℤ → σ → σ) := none
  modeChangedHandler : Option (EvdiMode → σ → σ) := none
  updateReadyHandler : Option (ℤ → σ → σ) := none
  crtcStateHandler : Option (ℤ → σ → σ) := none
  cursorSetHandler : Option (EvdiCursorSet → σ → σ) := none
  cursorMoveHandler : Option (EvdiCursorMove → σ → σ) := none

/-- What of `struct evdi_device_context` the events need.  `mapDumb handle size` is
what `mmap` shows of the buffer with this handle, if it can be mapped. -/
structure Context where
  bufferToUpdate : ℤ
  mapDumb : ℕ → ℕ → Option (List UInt8)

/-- `to_evdi_mode(event)` -/
def toEvdiMode (event : EvdiEventModeChanged) : EvdiMode where
  width := event.hdisplay
  height := event.vdisplay
  refreshRate := event.vrefresh
  bitsPerPixel := event.bitsPerPixel
  pixelFormat := event.pixelFormat

/-- `to_evdi_cursor_set(handle, event)` -/
def toEvdiCursorSet (handle : Context) (event : EvdiEventCursorSet) : EvdiCursorSet where
  hotX := event.hotX
  hotY := event.hotY
  width := event.width
  height := event.height
  enabled := event.enabled
  bufferLength := event.bufferLength
  buffer := if event.enabled ≠ 0 then handle.mapDumb event.bufferHandle event.bufferLength
    else none
  pixelFormat := event.pixelFormat
  stride := event.stride

/-- `to_evdi_cursor_move(event)` -/
def toEvdiCursorMove (event : EvdiEventCursorMove) : EvdiCursorMove := ⟨event.x, event.y⟩

section Handling

variable {σ : Type u}

/-- Call a handler, if there is one, with the data of its event. -/
def notify {α : Type} (handler : Option (α → σ → σ)) (data : Option α) (s : σ) : Option σ :=
  match handler with
  | none => some s
  | some handler => data.map fun value => handler value s

/-- `(struct drm_evdi_event_mode_changed *) e` -/
def modeChangedAt (buffer : List UInt8) (e : ℤ) : Option EvdiEventModeChanged := do
  let hdisplay ← intAt 4 buffer (e + 8)
  let vdisplay ← intAt 4 buffer (e + 12)
  let vrefresh ← intAt 4 buffer (e + 16)
  let bitsPerPixel ← intAt 4 buffer (e + 20)
  let pixelFormat ← natAt 4 buffer (e + 24)
  some ⟨hdisplay, vdisplay, vrefresh, bitsPerPixel, pixelFormat⟩

/-- `(struct drm_evdi_event_cursor_set *) e` -/
def cursorSetAt (buffer : List UInt8) (e : ℤ) : Option EvdiEventCursorSet := do
  let hotX ← intAt 4 buffer (e + 8)
  let hotY ← intAt 4 buffer (e + 12)
  let width ← natAt 4 buffer (e + 16)
  let height ← natAt 4 buffer (e + 20)
  let enabled ← natAt 1 buffer (e + 24)
  let bufferHandle ← natAt 4 buffer (e + 28)
  let bufferLength ← natAt 4 buffer (e + 32)
  let pixelFormat ← natAt 4 buffer (e + 36)
  let stride ← natAt 4 buffer (e + 40)
  some ⟨hotX, hotY, width, height, enabled, bufferHandle, bufferLength, pixelFormat, stride⟩

/-- `(struct drm_evdi_event_cursor_move *) e` -/
def cursorMoveAt (buffer : List UInt8) (e : ℤ) : Option EvdiEventCursorMove := do
  let x ← intAt 4 buffer (e + 8)
  let y ← intAt 4 buffer (e + 12)
  some ⟨x, y⟩

/-- `evdi_handle_event(handle, evtctx, e)`, for the event at index `e` of the buffer. -/
def handleEvent (handle : Context) (evtctx : EvdiEventContext σ) (buffer : List UInt8)
    (e : ℤ) (s : σ) : Option σ :=
  (natAt 4 buffer e).bind fun type =>
    if type = drmEvdiEventUpdateReady then
      notify evtctx.updateReadyHandler (some handle.bufferToUpdate) s
    else if type = drmEvdiEventDpms then
      notify evtctx.dpmsHandler (intAt 4 buffer (e + 8)) s
    else if type = drmEvdiEventModeChanged then
      notify evtctx.modeChangedHandler ((modeChangedAt buffer e).map toEvdiMode) s
    else if type = drmEvdiEventCrtcState then
      notify evtctx.crtcStateHandler (intAt 4 buffer (e + 8)) s
    else if type = drmEvdiEventCursorSet then
      notify evtctx.cursorSetHandler ((cursorSetAt buffer e).map (toEvdiCursorSet handle)) s
    else if type = drmEvdiEventCursorMove then
      notify evtctx.cursorMoveHandler ((cursorMoveAt buffer e).map toEvdiCursorMove) s
    else some s

/-- `while (i < bytesRead)` -/
def handleEventsFrom (handle : Context) (evtctx : EvdiEventContext σ) (buffer : List UInt8)
    (bytesRead : ℤ) : ℕ → ℤ → σ → Option σ
  | 0, i, s => if i < bytesRead then none else some s
  | fuel + 1, i, s =>
      if i < bytesRead then
        (handleEvent handle evtctx buffer i s).bind fun s =>
          (natAt 4 buffer (i + 4)).bind fun length =>
            -- `i` is an `int` and `length` an `uint32_t`.
            handleEventsFrom handle evtctx buffer bytesRead fuel
              ((i + length).bmod (2 ^ 32)) s
      else some s

/-- `char buffer[1024]` -/
def eventBufferSize : ℕ := 1024

/-- `evdi_handle_events(handle, evtctx)`: `received` is what `read` returns, and `stack`
what the buffer held before. -/
def evdiHandleEvents (handle : Context) (evtctx : Option (EvdiEventContext σ))
    (received : Option (List UInt8)) (stack : List UInt8) (fuel : ℕ) (s : σ) : Option σ :=
  match evtctx with
  | none => some s
  | some evtctx =>
      match received with
      | none => handleEventsFrom handle evtctx stack (-1) fuel 0 s
      | some bytes =>
          handleEventsFrom handle evtctx (bytes ++ stack.drop bytes.length)
            bytes.length fuel 0 s

/-! ## The events of the driver -/

/-- What is to become of an event: its handler is called, with the fields of the event.
For an update this is the buffer that was requested last, and for a cursor that is shown
a copy of its buffer. -/
def EvdiEventContext.handle (evtctx : EvdiEventContext σ) (handle : Context) (s : σ) :
    EvdiEvent → σ
  | .updateReady => (evtctx.updateReadyHandler.getD fun _ s => s) handle.bufferToUpdate s
  | .dpms mode => (evtctx.dpmsHandler.getD fun _ s => s) mode s
  | .modeChanged event =>
      (evtctx.modeChangedHandler.getD fun _ s => s)
        { width := event.hdisplay
          height := event.vdisplay
          refreshRate := event.vrefresh
          bitsPerPixel := event.bitsPerPixel
          pixelFormat := event.pixelFormat } s
  | .crtcState state => (evtctx.crtcStateHandler.getD fun _ s => s) state s
  | .cursorSet event =>
      (evtctx.cursorSetHandler.getD fun _ s => s)
        { hotX := event.hotX
          hotY := event.hotY
          width := event.width
          height := event.height
          enabled := event.enabled
          bufferLength := event.bufferLength
          buffer :=
            if event.enabled = 0 then none
            else handle.mapDumb event.bufferHandle event.bufferLength
          pixelFormat := event.pixelFormat
          stride := event.stride } s
  | .cursorMove event =>
      (evtctx.cursorMoveHandler.getD fun _ s => s) { x := event.x, y := event.y } s

/-- A handler that is there is called, and no handler does nothing. -/
theorem notify_some {α : Type} (handler : Option (α → σ → σ)) (value : α) (s : σ) :
    notify handler (some value) s = some ((handler.getD fun _ s => s) value s) := by
  cases handler <;> rfl

section Record

variable {before : List UInt8} {i : ℤ} (here : i = before.length)

include here

/-- The `type` is read where it was written, -/
theorem typeAt_bytes (event : EvdiEvent) (after : List UInt8) :
    natAt 4 (before ++ event.bytes ++ after) i = some event.type := by
  rw [EvdiEvent.bytes]
  exact natAt_record 0 after rfl event.type_lt here

/-- and the `length`. -/
theorem lengthAt_bytes (event : EvdiEvent) (after : List UInt8) :
    natAt 4 (before ++ event.bytes ++ after) (i + 4) = some event.length := by
  rw [EvdiEvent.bytes]
  refine natAt_record 1 after rfl event.length_lt ?_
  rw [here]
  rfl

/-- The `k`th field of an event, an unsigned one, at its offset in the struct. -/
theorem natAt_bytes {event : EvdiEvent} (after : List UInt8) {width value : ℕ} (k : ℕ)
    (offset : ℤ) (kth : event.fields[k]? = some (natBytes width value))
    (h : value < 256 ^ width)
    (field : (((event.fields.take k).map List.length).sum : ℤ) = offset) :
    natAt width (before ++ event.bytes ++ after) (i + offset) = some value := by
  rw [EvdiEvent.bytes]
  refine natAt_record k after kth h ?_
  rw [here, field]

/-- The `k`th field of an event, an `int32_t`, at its offset in the struct. -/
theorem intAt_bytes {event : EvdiEvent} (after : List UInt8) {value : ℤ} (k : ℕ)
    (offset : ℤ) (kth : event.fields[k]? = some (intBytes 4 value)) (h : InRange 32 value)
    (field : (((event.fields.take k).map List.length).sum : ℤ) = offset) :
    intAt 4 (before ++ event.bytes ++ after) (i + offset) = some value := by
  rw [EvdiEvent.bytes]
  refine intAt_record k after kth (Nat.succ_pos 3) h ?_
  rw [here, field]

/-- The fields of each struct are read as they were written. -/
theorem modeChangedAt_bytes {event : EvdiEventModeChanged} (after : List UInt8)
    (wellFormed : (EvdiEvent.modeChanged event).WellFormed) :
    modeChangedAt (before ++ (EvdiEvent.modeChanged event).bytes ++ after) i =
      some event := by
  obtain ⟨hdisplay, vdisplay, vrefresh, bitsPerPixel, pixelFormat⟩ := wellFormed
  rw [modeChangedAt, intAt_bytes here after 2 8 rfl hdisplay rfl,
    intAt_bytes here after 3 12 rfl vdisplay rfl,
    intAt_bytes here after 4 16 rfl vrefresh rfl,
    intAt_bytes here after 5 20 rfl bitsPerPixel rfl,
    natAt_bytes here after 6 24 rfl pixelFormat rfl]
  rfl

/-- Those of a cursor, -/
theorem cursorSetAt_bytes {event : EvdiEventCursorSet} (after : List UInt8)
    (wellFormed : (EvdiEvent.cursorSet event).WellFormed) :
    cursorSetAt (before ++ (EvdiEvent.cursorSet event).bytes ++ after) i = some event := by
  obtain ⟨hotX, hotY, width, height, enabled, handle, length, format, stride⟩ := wellFormed
  rw [cursorSetAt, intAt_bytes here after 2 8 rfl hotX rfl,
    intAt_bytes here after 3 12 rfl hotY rfl, natAt_bytes here after 4 16 rfl width rfl,
    natAt_bytes here after 5 20 rfl height rfl, natAt_bytes here after 6 24 rfl enabled rfl,
    -- The padding is no field of the program's.
    natAt_bytes here after 8 28 rfl handle rfl, natAt_bytes here after 9 32 rfl length rfl,
    natAt_bytes here after 10 36 rfl format rfl,
    natAt_bytes here after 11 40 rfl stride rfl]
  rfl

/-- and of its position. -/
theorem cursorMoveAt_bytes {event : EvdiEventCursorMove} (after : List UInt8)
    (wellFormed : (EvdiEvent.cursorMove event).WellFormed) :
    cursorMoveAt (before ++ (EvdiEvent.cursorMove event).bytes ++ after) i =
      some event := by
  rw [cursorMoveAt, intAt_bytes here after 2 8 rfl wellFormed.1 rfl,
    intAt_bytes here after 3 12 rfl wellFormed.2 rfl]
  rfl

/-- **One event**: of all the handlers, the one of its type is called, with what the
driver put into the event. -/
theorem handleEvent_bytes (handle : Context) (evtctx : EvdiEventContext σ)
    {event : EvdiEvent} (after : List UInt8) (wellFormed : event.WellFormed) (s : σ) :
    handleEvent handle evtctx (before ++ event.bytes ++ after) i s =
      some (evtctx.handle handle s event) := by
  rw [handleEvent, typeAt_bytes here, Option.bind_some]
  cases event with
  | updateReady => exact notify_some _ _ s
  | dpms mode =>
      rw [intAt_bytes here after 2 8 rfl wellFormed rfl]
      exact notify_some _ _ s
  | modeChanged event =>
      rw [modeChangedAt_bytes here after wellFormed]
      exact notify_some _ _ s
  | crtcState state =>
      rw [intAt_bytes here after 2 8 rfl wellFormed rfl]
      exact notify_some _ _ s
  | cursorSet event =>
      rw [cursorSetAt_bytes here after wellFormed]
      refine (notify_some _ _ s).trans ?_
      simp only [EvdiEventContext.handle, toEvdiCursorSet, ite_not]
  | cursorMove event =>
      rw [cursorMoveAt_bytes here after wellFormed]
      exact notify_some _ _ s

end Record

/-- **The loop**, from some event on: one turn for each event. -/
theorem handleEventsFrom_bytes (handle : Context) (evtctx : EvdiEventContext σ)
    (before after : List UInt8) {events : List EvdiEvent} {bytesRead : ℤ} {fuel : ℕ}
    {i : ℤ} (wellFormed : ∀ event ∈ events, event.WellFormed) (here : i = before.length)
    (read : bytesRead = i + (events.flatMap EvdiEvent.bytes).length)
    (small : bytesRead < 2 ^ 31) (enough : events.length ≤ fuel) (s : σ) :
    handleEventsFrom handle evtctx (before ++ events.flatMap EvdiEvent.bytes ++ after)
      bytesRead fuel i s = some (events.foldl (evtctx.handle handle) s) := by
  induction events generalizing before fuel i s with
  | nil =>
      have ended : ¬i < bytesRead := by
        rw [List.flatMap_nil, List.length_nil] at read
        omega
      cases fuel with
      | zero => exact if_neg ended
      | succ fuel => exact if_neg ended
  | cons event events ih =>
      obtain ⟨fuel, rfl⟩ := Nat.exists_eq_succ_of_ne_zero
        (Nat.ne_of_gt (Nat.lt_of_lt_of_le (Nat.succ_pos _) enough))
      have total : ((event :: events).flatMap EvdiEvent.bytes).length =
          event.length + (events.flatMap EvdiEvent.bytes).length := by
        rw [List.flatMap_cons, List.length_append, EvdiEvent.length_bytes]
      rw [total] at read
      push_cast at read
      have more : i < bytesRead := by
        have := event.length_pos
        omega
      have regrouped : before ++ (event :: events).flatMap EvdiEvent.bytes ++ after =
          before ++ event.bytes ++ (events.flatMap EvdiEvent.bytes ++ after) := by
        simp only [List.flatMap_cons, List.append_assoc]
      -- No `int` overflows on the way.
      have next : (i + event.length).bmod (2 ^ 32) = i + event.length := by
        apply Int.bmod_eq_of_le <;> norm_num <;> omega
      rw [handleEventsFrom, if_pos more, regrouped,
        handleEvent_bytes here handle evtctx _ (wellFormed event List.mem_cons_self),
        Option.bind_some, lengthAt_bytes here, Option.bind_some, next, List.foldl_cons]
      rw [← List.append_assoc]
      refine ih _ (fun e he => wellFormed e (List.mem_cons_of_mem _ he)) ?_ ?_
        (Nat.le_of_succ_le_succ enough) _
      · rw [List.length_append, EvdiEvent.length_bytes, here]
        push_cast
        rfl
      · omega

/-- **One call** handles all the events it reads, in order, whatever was in the buffer
before. -/
theorem evdiHandleEvents_eq (handle : Context) (evtctx : EvdiEventContext σ)
    {events : List EvdiEvent} (wellFormed : ∀ event ∈ events, event.WellFormed)
    (fits : (events.flatMap EvdiEvent.bytes).length ≤ eventBufferSize) (stack : List UInt8)
    (s : σ) :
    evdiHandleEvents handle (some evtctx) (some (events.flatMap EvdiEvent.bytes)) stack
      events.length s = some (events.foldl (evtctx.handle handle) s) := by
  have small : ((events.flatMap EvdiEvent.bytes).length : ℤ) < 2 ^ 31 := by
    rw [eventBufferSize] at fits
    omega
  exact handleEventsFrom_bytes handle evtctx [] _ wellFormed rfl
    (zero_add _).symm small le_rfl s

/-! ## Over a whole session -/

end Handling

/-! ## The handler of kernelflut -/

/-- `econtext`, as `evdi_setup` fills it in; the state is `ebuf_ready_fbid`. -/
def econtext : EvdiEventContext ℤ where
  updateReadyHandler := some fun fbid _ => fbid

/-- What the wait protocol has in its queue for an event. -/
def Stands (event : Evdi.DrmEvent) (sent : EvdiEvent) : Prop :=
  match event with
  | .updateReady _ => sent = .updateReady
  | .other => sent ≠ .updateReady

/-- The handler does to `ebuf_ready_fbid` what the protocol says, -/
theorem handle_econtext {event : Evdi.DrmEvent} {sent : EvdiEvent}
    (stands : Stands event sent) (s : Evdi.WaitState)
    (mapDumb : ℕ → ℕ → Option (List UInt8)) :
    econtext.handle ⟨s.bufferToUpdate.val, mapDumb⟩ s.readyFbid sent =
      (Evdi.handleEvent s event).readyFbid := by
  cases event with
  | updateReady request =>
      obtain rfl : sent = .updateReady := stands
      rfl
  | other =>
      cases sent with
      | updateReady => exact absurd rfl stands
      | _ => rfl

/-- which leaves the request alone, -/
@[simp] theorem handleEvent_bufferToUpdate (s : Evdi.WaitState) (event : Evdi.DrmEvent) :
    (Evdi.handleEvent s event).bufferToUpdate = s.bufferToUpdate := by
  cases event <;> rfl

/-- for all the events of a read. -/
theorem foldl_handle_econtext {batch : List Evdi.DrmEvent} {events : List EvdiEvent}
    (stand : List.Forall₂ Stands batch events) (s : Evdi.WaitState)
    (mapDumb : ℕ → ℕ → Option (List UInt8)) :
    events.foldl (econtext.handle ⟨s.bufferToUpdate.val, mapDumb⟩) s.readyFbid =
      (batch.foldl Evdi.handleEvent s).readyFbid := by
  induction stand generalizing s with
  | nil => rfl
  | cons stands _ ih =>
      rw [List.foldl_cons, List.foldl_cons, handle_econtext stands, ← ih,
        handleEvent_bufferToUpdate]

/-- **The wait protocol on bytes**: what `evdi_handle_events` makes of the first events
of the queue, as the driver lays them out, is the step of the protocol. -/
theorem evdiHandleEvents_wait (s : Evdi.WaitState) (count : ℕ) (events : List EvdiEvent)
    (stand : List.Forall₂ Stands (s.queue.take count) events)
    (wellFormed : ∀ event ∈ events, event.WellFormed)
    (fits : (events.flatMap EvdiEvent.bytes).length ≤ eventBufferSize) (stack : List UInt8)
    (mapDumb : ℕ → ℕ → Option (List UInt8)) :
    evdiHandleEvents ⟨s.bufferToUpdate.val, mapDumb⟩ (some econtext)
      (some (events.flatMap EvdiEvent.bytes)) stack events.length s.readyFbid =
        some (Evdi.handleEvents s count).readyFbid := by
  rw [evdiHandleEvents_eq _ _ wellFormed fits]
  exact congrArg some
    (foldl_handle_econtext stand { s with queue := s.queue.drop count } mapDumb)

/-- A `dpms` event and the update, on top of an old byte. -/
theorem evdiHandleEvents_wait_updateReady :
    evdiHandleEvents ⟨1, fun _ _ => none⟩ (some econtext)
      (some ([.dpms 3, .updateReady].flatMap EvdiEvent.bytes)) [255] 2 (-1) = some 1 :=
  evdiHandleEvents_wait
    { Evdi.WaitState.start .start 1 with queue := [.other, .updateReady 0, .other] } 2
    [.dpms 3, .updateReady] (.cons EvdiEvent.noConfusion (.cons rfl .nil))
    (by simp [EvdiEvent.WellFormed]; decide) (by decide) [255] fun _ _ => none

end Kernelflut.LibEvdi
