import Kernelflut.Driver.Painter
import Kernelflut.Foundations.Mirroring

/-!
# No damage is lost

What a client shows of the screen is made of its grabs, each of which carries only the
rectangles that were dirty.  The framebuffers are drawn into all the time, also while a
grab copies, and mode setting may exchange the one that is scanned out.  The cursor is not
in a framebuffer: a grab copies the rectangles first, and draws the cursor over them then.

`System` has all of them: the driver, the framebuffers' memory, the grab under way, and
the picture of the client.  Two of its fields are not in the code, and nothing is decided
by them.  `unmarked` is what has changed since it was last in a rectangle that
`evdi_painter_mark_dirty` was called with, and `lost` what a failing grab took and did not
deliver.

The system is a mirror kept by marking damage, step by step (`systemStep_refines`).  So
a pixel of the picture is right unless it is damage that is not grabbed yet or was lost,
in every interleaving (`picture_of_run`).  A pixel that is copied without the cursor
over it is not right yet; the copy counts when the cursor is drawn.

There is one client, which grabs when its last grab has returned, and a pixel is copied at
once.
-/

namespace Kernelflut.Driver

open Kernelflut.Pixelflut PartialStep Merging

/-- The pixels of a rectangle, in the order `copy_primary_pixels` copies them. -/
def DrmClipRect.positions (r : DrmClipRect) : List Pos :=
  (List.range' r.y1 (r.y2 - r.y1)).flatMap fun y : ℕ =>
    (List.range' r.x1 (r.x2 - r.x1)).map fun x : ℕ => (x, y)

/-- They are all of its pixels. -/
theorem DrmClipRect.mem_positions {r : DrmClipRect} {p : Pos} :
    p ∈ r.positions ↔ p ∈ r.pixels := by
  simp only [positions, List.mem_flatMap, List.mem_map, List.mem_range'_1, mem_pixels]
  constructor
  · rintro ⟨y, hy, x, hx, rfl⟩
    dsimp only
    omega
  · rintro ⟨⟨left, right⟩, above, below⟩
    refine ⟨p.2.toNat, by omega, p.1.toNat, by omega, Prod.ext ?_ ?_⟩
    · exact Int.toNat_of_nonneg (by omega)
    · exact Int.toNat_of_nonneg (by omega)

instance (rects : List DrmClipRect) : DecidablePred (· ∈ dirtyArea rects) := fun p =>
  inferInstanceAs (Decidable (∃ r ∈ rects, p ∈ r.pixels))

/-! ## The cursor over the desktop -/

/-- The module's parameter, and `evdi_fb_get_bpp`. -/
structure Params where
  enableCursorBlending : Bool
  getBpp : ℕ → ℕ

section Overlay

variable (params : Params) (cursor : EvdiCursor) (efb : EvdiFramebuffer)

/-- What the framebuffer's content looks like with the cursor over it. -/
def Params.overlay (content : Pos → Word) (p : Pos) : Word :=
  match shownCursor params.enableCursorBlending params.getBpp cursor with
  | none => content p
  | some cursorBuffer =>
      if p ∈ efb.frame ∧ p ∈ cursor.area then
        blendAlpha (content p)
          (cursorWord cursorBuffer (p.1 - cursor.x + (p.2 - cursor.y) * cursor.width))
      else content p

/-- The pixels that `evdi_cursor_compose_and_copy` writes, in the order of its loops. -/
def Params.composePositions : List Pos :=
  if (shownCursor params.enableCursorBlending params.getBpp cursor).isSome then
    ((cursorOffsets (cursor.width / 2 : ℕ) (cursor.height / 2 : ℕ)).map
      (mousePix cursor)).filter
      fun p => p ∈ efb.frame
  else []

variable {cursor efb}

/-- They are those the cursor is drawn over. -/
theorem Params.mem_composePositions {p : Pos} :
    p ∈ params.composePositions cursor efb ↔
      p ∈ overlaidArea params.enableCursorBlending params.getBpp cursor efb := by
  have drawn : p ∈ drawnAt cursor efb
      (cursorOffsets (cursor.width / 2 : ℕ) (cursor.height / 2 : ℕ)) ↔
        p ∈ efb.frame ∧ p ∈ cursor.area := by rw [drawnAt_cursorOffsets]; rfl
  rw [composePositions]
  split
  · next shown =>
      simp only [overlaidArea, Set.mem_ofPred_eq, shown, true_and, ← drawn, List.mem_filter,
        List.mem_map, decide_eq_true_eq, drawnAt, Set.mem_inter_iff]
      exact and_comm
  · next hidden => simp [overlaidArea, hidden]

/-- Elsewhere the content is seen as it is. -/
theorem Params.overlay_of_notMem {p : Pos}
    (other : p ∉ overlaidArea params.enableCursorBlending params.getBpp cursor efb)
    (content : Pos → Word) : params.overlay cursor efb content p = content p := by
  rw [overlay]
  split
  · rfl
  · next shown => exact if_neg fun h => other ⟨by rw [shown]; rfl, h⟩

/-- It only depends on what is there. -/
theorem Params.overlay_congr {content content' : Pos → Word} {p : Pos}
    (same : content p = content' p) :
    params.overlay cursor efb content p = params.overlay cursor efb content' p := by
  simp only [overlay, same]

/-- It is what `copyPixels_spec` says of bytes. -/
theorem Params.overlay_scanoutWord {vmapping : List UInt8} {p : Pos} (hp : p ∈ efb.frame) :
    params.overlay cursor efb (scanoutWord efb vmapping) p =
      overlaidWord params.enableCursorBlending params.getBpp cursor efb vmapping p := by
  cases shown : shownCursor params.enableCursorBlending params.getBpp cursor <;>
    simp [overlay, overlaidWord, composedWord, shown, hp]

end Overlay

/-! ## The system -/

/-- `evdi_painter_grabpix_ioctl` after it gave up the lock. -/
structure Grab where
  cmd : EvdiDevice.Grabpix
  efb : EvdiFramebuffer
  /-- The rectangles that are reported. -/
  reported : List DrmClipRect
  /-- Those that are not begun. -/
  rects : List DrmClipRect
  /-- What is left of the one that is. -/
  row : List Pos
  /-- What is left of the cursor, once it is begun. -/
  cursor : Option (List Pos)
  copied : Pos → Option Word

namespace Grab

/-- "Invalid buffer dimension" is not reported. -/
def BufferFits (g : Grab) : Prop :=
  g.cmd.bufWidth = g.efb.width ∧ g.cmd.bufHeight = g.efb.height

instance (g : Grab) : Decidable g.BufferFits := inferInstanceAs (Decidable (_ ∧ _))

/-- After the lock was given up. -/
def start (cmd : EvdiDevice.Grabpix) (efb : EvdiFramebuffer) (rects : List DrmClipRect) :
    Grab where
  cmd
  efb
  reported := rects
  rects
  row := []
  cursor := none
  copied := fun _ => none

/-- All pixels of the grab. -/
def area (g : Grab) : Set Pos := dirtyArea g.reported

/-- Those that are not copied. -/
def todo (g : Grab) : Set Pos := dirtyArea g.rects ∪ {p | p ∈ g.row}

/-- Those that are as they will be delivered. -/
def done (g : Grab) : Set Pos := {p | p ∈ g.area ∧ ∃ left ∈ g.cursor, p ∉ left}

/-- In the second pass all but those that are left are done. -/
theorem mem_done {g : Grab} {left : List Pos} (begun : g.cursor = some left) {p : Pos} :
    p ∈ g.done ↔ p ∈ g.area ∧ p ∉ left := by
  simp [done, begun]

/-- Before the cursor no pixel is ready. -/
theorem done_eq_empty {g : Grab} (first : g.cursor = none) : g.done = ∅ := by
  ext p
  simp [done, first]

/-- With it all of them are. -/
theorem done_eq_area {g : Grab} (complete : g.cursor = some []) : g.done = g.area := by
  ext p
  simp [mem_done complete]

instance (g : Grab) : DecidablePred (· ∈ g.done) := fun p =>
  inferInstanceAs (Decidable (p ∈ dirtyArea g.reported ∧ ∃ left ∈ g.cursor, p ∉ left))

end Grab

structure System where
  driver : DriverState
  /-- What `efb->obj->vmapping` shows. -/
  memory : EvdiFramebuffer → Pos → Word
  grab : Option Grab
  picture : Pos → Word
  unmarked : Set Pos
  lost : Set Pos

namespace System

variable (params : Params)

def scanoutFb (s : System) : Option EvdiFramebuffer := s.driver.device.painter.scanoutFb

def dirty (s : System) : Set Pos := dirtyArea s.driver.device.painter.dirtyRects

/-- What `evdi` would have a client show, framebuffer by framebuffer. -/
def view (s : System) (efb : EvdiFramebuffer) : Pos → Word :=
  params.overlay s.driver.device.cursor efb (s.memory efb)

/-- What is on the screen: nothing in particular when nothing is scanned out. -/
def screen (s : System) : Pos → Word :=
  match s.scanoutFb with
  | none => fun _ => 0
  | some efb => s.view params efb

/-- The positions where something changes, on the screen or under the cursor: all of them
when the framebuffer does. -/
def changed (s t : System) : Set Pos :=
  {p | t.scanoutFb = s.scanoutFb →
    t.screen params p ≠ s.screen params p ∨
      ∃ efb, t.scanoutFb = some efb ∧ t.memory efb p ≠ s.memory efb p}

/-- The state is `t` now, and these pixels were marked. -/
def advance (s t : System) (marked : Set Pos) : System :=
  { t with unmarked := (s.unmarked ∪ s.changed params t) \ marked }

/-- Nothing is scanned out, and the picture is whatever it is. -/
def start (cursor : EvdiCursor) (memory : EvdiFramebuffer → Pos → Word)
    (picture : Pos → Word) : System where
  driver := .start cursor
  memory
  grab := none
  picture
  unmarked := Set.univ
  lost := ∅

/-- The cursor is being drawn, and its lock is taken. -/
def composing (s : System) : Bool :=
  match s.grab.bind Grab.cursor with
  | some (_ :: _) => true
  | _ => false

end System

/-- The two sections of a grab. -/
def DriverInput.isGrab : DriverInput → Bool
  | .grabpix _ => true
  | .grabbed _ => true
  | _ => false

inductive Action where
  /-- Someone draws: the framebuffer's content is this now. -/
  | draw (efb : EvdiFramebuffer) (content : Pos → Word)
  | drive (input : DriverInput)
  | grab (cmd : EvdiDevice.Grabpix)
  | nextRect
  | copyPixel
  /-- `evdi_cursor_compose_and_copy` is called. -/
  | composeCursor
  | composePixel
  /-- A pixel of it cannot be written to: this is logged, and the grab goes on. -/
  | skipCursor
  /-- The grab fails: for the size of the buffer, for memory that cannot be mapped or
  written to, or a rectangle outside of the framebuffer. -/
  | fail
  /-- It returns 0, and the client takes the rectangles from its buffer. -/
  | deliver

def systemStep (params : Params) (s : System) : Action → Option System
  | .draw efb content =>
      some (s.advance params { s with memory := Function.update s.memory efb content } ∅)
  | .drive input =>
      if input.isGrab then none
      else
        (driverStep s.driver input).bind fun driver =>
          -- A change of the cursor waits for its lock.
          if s.composing ∧ driver.device.cursor ≠ s.driver.device.cursor then none
          else some (s.advance params { s with driver } (s.driver.marks input))
  | .grab cmd =>
      match s.grab with
      | some _ => none
      | none =>
          match s.driver.device.grabpix cmd with
          | (device, .error _) =>
            some (s.advance params { s with driver.device := device } ∅)
          | (device, .ok (efb, rects)) =>
              some { s with
                driver := { s.driver with device, grabbing := efb :: s.driver.grabbing }
                grab := some (.start cmd efb rects) }
  | .nextRect =>
      s.grab.bind fun g =>
        match g.row, g.rects with
        | [], r :: rects =>
            -- The checks of the buffer's size and of the rectangle.
            if g.BufferFits ∧ r.x2 ≤ g.efb.width ∧ r.y2 ≤ g.efb.height then
              some { s with grab := some { g with rects, row := r.positions } }
            else none
        | _, _ => none
  | .copyPixel =>
      s.grab.bind fun g =>
        match g.row with
        | [] => none
        | p :: row =>
            some { s with grab := some { g with
              row
              copied := Function.update g.copied p (some (s.memory g.efb p)) } }
  | .composeCursor =>
      s.grab.bind fun g =>
        if g.BufferFits ∧ g.rects = [] ∧ g.row = [] ∧ g.cursor = none then
          let g' := { g with
            cursor := some (params.composePositions s.driver.device.cursor g.efb) }
          some { s with grab := some g', lost := s.lost \ g'.done }
        else none
  | .composePixel =>
      s.grab.bind fun g =>
        match g.cursor with
        | some (p :: left) =>
            let g' := { g with
              cursor := some left
              copied := Function.update g.copied p (some (s.view params g.efb p)) }
            some { s with grab := some g', lost := s.lost \ (g'.done \ g.done) }
        | _ => none
  | .skipCursor =>
      s.grab.bind fun g =>
        match g.cursor with
        | some (_ :: _) =>
            some { s with
              grab := some { g with cursor := some [] }
              lost := s.lost ∪ g.area \ g.done }
        | _ => none
  | .fail =>
      s.grab.bind fun g =>
        if g.cursor = none then
          (driverStep s.driver (.grabbed g.efb)).map fun driver =>
            { s with driver, grab := none, lost := s.lost ∪ g.area }
        else none
  | .deliver =>
      s.grab.bind fun g =>
        if g.cursor = some [] then
          (driverStep s.driver (.grabbed g.efb)).map fun driver =>
            { s with
              driver
              grab := none
              picture := fun p =>
                if p ∈ dirtyArea g.reported then (g.copied p).getD (s.picture p)
                else s.picture p }
        else none

/-- **What a step of the system can be**: something is drawn, marked or changed, a grab
begins, one that is under way goes on, or it ends. -/
theorem systemStep_cases {params : Params} {s t : System} {action : Action}
    (step : systemStep params s action = some t) :
    (∃ driver memory marked, t = s.advance params { s with driver, memory } marked ∧
      (driver = s.driver ∨ ∃ input, driverStep s.driver input = some driver ∧
        (action = .drive input ∨ input.isGrab = true))) ∨
    (∃ cmd g driver, action = .grab cmd ∧
      driverStep s.driver (.grabpix cmd) = some driver ∧
        t = { s with driver, grab := some g }) ∨
    (∃ g g' lost, s.grab = some g ∧ t = { s with grab := some g', lost } ∧
      g'.reported = g.reported ∧ (action ≠ .skipCursor → lost ⊆ s.lost)) ∨
    ∃ g driver picture lost, s.grab = some g ∧
      driverStep s.driver (.grabbed g.efb) = some driver ∧
        t = { s with driver, grab := none, picture, lost } ∧
          (action = .fail ∨ action = .deliver ∧ lost = s.lost) := by
  cases action with
  | draw efb content =>
      cases step
      exact Or.inl ⟨_, _, _, rfl, Or.inl rfl⟩
  | drive input =>
      rw [systemStep] at step
      split_ifs at step
      obtain ⟨driver, driven, step⟩ := Option.bind_eq_some_iff.mp step
      split_ifs at step
      cases step
      exact Or.inl ⟨_, _, _, rfl, Or.inr ⟨input, driven, Or.inl rfl⟩⟩
  | grab cmd =>
      simp only [systemStep] at step
      split at step
      · cases step
      · split at step
        · next failed =>
            cases step
            exact Or.inl ⟨_, _, _, rfl, Or.inr ⟨.grabpix cmd,
              by rw [driverStep, failed], Or.inr rfl⟩⟩
        · next taken =>
            cases step
            exact Or.inr (Or.inl ⟨cmd, _, _, rfl, by rw [driverStep, taken], rfl⟩)
  | nextRect =>
      obtain ⟨g, grabbing, step⟩ := Option.bind_eq_some_iff.mp step
      split at step
      · split_ifs at step
        cases step
        exact Or.inr (Or.inr (Or.inl ⟨g, _, _, grabbing, rfl, rfl, fun _ => subset_rfl⟩))
      · cases step
  | copyPixel =>
      obtain ⟨g, grabbing, step⟩ := Option.bind_eq_some_iff.mp step
      split at step <;> cases step
      exact Or.inr (Or.inr (Or.inl ⟨g, _, _, grabbing, rfl, rfl, fun _ => subset_rfl⟩))
  | composeCursor =>
      obtain ⟨g, grabbing, step⟩ := Option.bind_eq_some_iff.mp step
      split_ifs at step
      cases step
      exact Or.inr (Or.inr (Or.inl
        ⟨g, _, _, grabbing, rfl, rfl, fun _ => Set.sdiff_subset⟩))
  | composePixel =>
      obtain ⟨g, grabbing, step⟩ := Option.bind_eq_some_iff.mp step
      split at step <;> cases step
      exact Or.inr (Or.inr (Or.inl
        ⟨g, _, _, grabbing, rfl, rfl, fun _ => Set.sdiff_subset⟩))
  | skipCursor =>
      obtain ⟨g, grabbing, step⟩ := Option.bind_eq_some_iff.mp step
      split at step <;> cases step
      exact Or.inr (Or.inr (Or.inl ⟨g, _, _, grabbing, rfl, rfl, fun h => absurd rfl h⟩))
  | fail =>
      obtain ⟨g, grabbing, step⟩ := Option.bind_eq_some_iff.mp step
      split_ifs at step
      obtain ⟨driver, ended, rfl⟩ := Option.map_eq_some_iff.mp step
      exact Or.inr (Or.inr (Or.inr ⟨g, _, _, _, grabbing, ended, rfl, Or.inl rfl⟩))
  | deliver =>
      obtain ⟨g, grabbing, step⟩ := Option.bind_eq_some_iff.mp step
      split_ifs at step
      obtain ⟨driver, ended, rfl⟩ := Option.map_eq_some_iff.mp step
      exact Or.inr (Or.inr (Or.inr
        ⟨g, _, _, _, grabbing, ended, rfl, Or.inr ⟨rfl, rfl⟩⟩))

/-! ## The system mirrors the screen -/

/-- Only a grab takes damage. -/
theorem DriverState.takes_eq_false (s : DriverState) {input : DriverInput}
    (other : input.isGrab = false) : s.takes input = false := by
  cases input with
  | grabpix cmd => cases other
  | _ => rfl

namespace System

/-- The mirror that the system keeps: the copies count when the cursor is over them. -/
def abstract (params : Params) (s : System) : Mirroring.State Pos Word where
  source := s.screen params
  mirror := s.picture
  unmarked := s.unmarked
  dirty := s.dirty
  taken := match s.grab with
    | none => ∅
    | some g => g.area \ g.done
  staged := match s.grab with
    | none => fun _ => none
    | some g => fun p => if p ∈ g.done then g.copied p else none
  lost := s.lost

end System

namespace System

/-- What is drawn, and what is marked. -/
theorem advance_refines {params : Params} {s t : System} {marked : Set Pos}
    (grown : s.dirty ∪ marked ⊆ t.dirty)
    (same : t.abstract params =
      { s.abstract params with source := t.screen params, dirty := t.dirty }) :
    Mirroring.Steps (s.abstract params) ((s.advance params t marked).abstract params) := by
  have outside : ∀ p ∉ s.changed params t, t.screen params p = s.screen params p := by
    intro p hp
    by_contra other
    exact hp fun _ => Or.inl other
  have draw := Mirroring.Step.draw (s := s.abstract params) (t.screen params)
    (s.changed params t) outside
  let unmarked := (s.unmarked ∪ s.changed params t) \ marked
  have kept : s.unmarked ∪ s.changed params t ⊆ unmarked ∪ t.dirty := by
    intro p hp
    by_cases told : p ∈ marked
    · exact Or.inr (grown (Or.inr told))
    · exact Or.inl ⟨hp, told⟩
  have mark := Mirroring.Step.mark
    (s := { s.abstract params with
      source := t.screen params, unmarked := s.unmarked ∪ s.changed params t })
    unmarked t.dirty (fun p hp => grown (Or.inl hp)) kept
  have result : (s.advance params t marked).abstract params =
      { s.abstract params with source := t.screen params, unmarked, dirty := t.dirty } := by
    show { t.abstract params with unmarked } = _
    rw [same]
  rw [result]
  exact (Relation.ReflTransGen.single draw).tail mark

end System

/-- What makes the copies right. -/
structure SystemInv (s : System) : Prop where
  driver : DriverInv s.driver
  /-- A grab copies the framebuffer that is scanned out, or everything is damage. -/
  grabbing : ∀ g, s.grab = some g →
    s.scanoutFb = some g.efb ∨ ∀ p, p ∈ s.unmarked ∪ s.dirty
  /-- The copies of the first pass are the framebuffer's content, or damage again. -/
  current : ∀ g, s.grab = some g → ∀ p ∈ g.area, p ∉ g.todo →
    ∃ word, g.copied p = some word ∧
    (g.cursor = none → word = s.memory g.efb p ∨ p ∈ s.unmarked ∪ s.dirty)
  /-- The cursor comes last. -/
  composing : ∀ g, s.grab = some g → g.cursor ≠ none → g.rects = [] ∧ g.row = []

/-- There is no grab, and nothing to be said. -/
theorem SystemInv.start (cursor : EvdiCursor) (memory : EvdiFramebuffer → Pos → Word)
    (picture : Pos → Word) : SystemInv (.start cursor memory picture) where
  driver := .start cursor
  grabbing := nofun
  current := nofun
  composing := nofun

/-- Nothing stops being damage here, and when the framebuffer changes all of it is. -/
theorem SystemInv.advance {params : Params} {s t : System} {marked : Set Pos}
    (inv : SystemInv s) (driver : DriverInv t.driver) (grown : s.dirty ∪ marked ⊆ t.dirty)
    (grab : t.grab = s.grab) : SystemInv (s.advance params t marked) := by
  have damage : ∀ p, p ∈ s.unmarked ∪ s.changed params t ∪ s.dirty →
      p ∈ (s.advance params t marked).unmarked ∪ (s.advance params t marked).dirty := by
    rintro p (drawn | dirty)
    · by_cases told : p ∈ marked
      · exact Or.inr (grown (Or.inr told))
      · exact Or.inl ⟨drawn, told⟩
    · exact Or.inr (grown (Or.inl dirty))
  refine ⟨driver, fun g hg => ?_, fun g hg p hp copied => ?_, fun g hg => ?_⟩
  · by_cases same : t.scanoutFb = s.scanoutFb
    · rcases inv.grabbing g (grab ▸ hg) with here | all
      · exact Or.inl (same.trans here)
      · exact Or.inr fun p => damage p ((all p).imp Or.inl id)
    · exact Or.inr fun p => damage p (Or.inl (Or.inr fun h => absurd h same))
  · obtain ⟨word, isCopied, fresh⟩ := inv.current g (grab ▸ hg) p hp copied
    refine ⟨word, isCopied, fun first => ?_⟩
    rcases fresh first with same | pending
    · by_cases changed : t.memory g.efb p = s.memory g.efb p
      · exact Or.inl (same.trans changed.symm)
      · refine Or.inr (damage p ?_)
        rcases inv.grabbing g (grab ▸ hg) with here | all
        · exact Or.inl (Or.inr fun scanout => Or.inr ⟨g.efb, scanout.trans here, changed⟩)
        · exact (all p).imp Or.inl id
    · exact Or.inr (damage p (pending.imp Or.inl id))
  · exact inv.composing g (grab ▸ hg)

/-- A grab that ends changes nothing of the painter and the cursor. -/
theorem device_of_grabbed {s t : DriverState} {efb : EvdiFramebuffer}
    (step : driverStep s (.grabbed efb) = some t) :
    t.device.painter = s.device.painter ∧ t.device.cursor = s.device.cursor := by
  obtain ⟨-, rfl⟩ := driverStep_grabbed step
  exact ⟨s.device.putFb_painter (some efb), s.device.putFb_cursor (some efb)⟩

section Steps

variable {params : Params} {s t : System}

/-- A step that is not one of a grab. -/
theorem advance_step {marked : Set Pos} (inv : SystemInv s) (driver : DriverInv t.driver)
    (grown : s.dirty ∪ marked ⊆ t.dirty)
    (same : t = { s with driver := t.driver, memory := t.memory }) :
    Mirroring.Steps (s.abstract params) ((s.advance params t marked).abstract params) ∧
      SystemInv (s.advance params t marked) := by
  refine ⟨System.advance_refines grown ?_, inv.advance driver grown ?_⟩
  · rw [same]
    rfl
  · rw [same]

/-- What a grab copies from is on the screen, but for pixels that were marked since, or
changed without it. -/
theorem SystemInv.view_eq_screen (inv : SystemInv s) {g : Grab} (grabbing : s.grab = some g)
    (p : Pos) : s.view params g.efb p = s.screen params p ∨ p ∈ s.unmarked ∪ s.dirty := by
  rcases inv.grabbing g grabbing with here | all
  · rw [System.screen, here]
    exact Or.inl rfl
  · exact Or.inr (all p)

/-- All the damage is taken. -/
theorem grab_refines {cmd : EvdiDevice.Grabpix} (inv : SystemInv s)
    (step : systemStep params s (.grab cmd) = some t) :
    Mirroring.Steps (s.abstract params) (t.abstract params) ∧ SystemInv t := by
  cases idle : s.grab with
  | some g => simp [systemStep, idle] at step
  | none =>
      simp only [systemStep, idle] at step
      have driven : ∀ u, driverStep s.driver (.grabpix cmd) = some u → DriverInv u :=
        fun u hu => inv.driver.step hu
      rw [driverStep] at driven
      rcases s.driver.device.grabpix_cases cmd with
        ⟨err, rects, failed, merges⟩ | ⟨efb, rects, taken, scanout, merges, -⟩
      · rw [failed] at step driven
        cases step
        refine advance_step inv (driven _ rfl) ?_ (by rw [idle])
        rw [Set.union_empty]
        exact dirtyArea_subset_of_merges merges
      · rw [taken] at step driven
        cases step
        refine ⟨?_,
          ⟨driven _ rfl, fun g hg => ?_, fun g hg p hp todo => ?_, fun g hg begun => ?_⟩⟩
        · have all : (s.abstract params).taken ∪ (s.abstract params).dirty ⊆
            dirtyArea rects := by
            simp only [System.abstract, idle, Set.empty_union]
            exact dirtyArea_subset_of_merges merges
          have taken' := Mirroring.Step.take (s := s.abstract params) (dirtyArea rects) all
          have none : (Grab.start cmd efb rects).done = ∅ := Grab.done_eq_empty rfl
          refine Relation.ReflTransGen.single ?_
          convert taken' using 1
          refine Mirroring.State.ext rfl rfl rfl cover_nil ?_ ?_ rfl
          · show (Grab.start cmd efb rects).area \ (Grab.start cmd efb rects).done = _
            rw [none, Set.sdiff_empty]
            rfl
          · simp [System.abstract, none, idle]
        · cases hg
          exact Or.inl scanout
        · cases hg
          exact absurd (Or.inl hp) todo
        · cases hg
          exact absurd rfl begun

/-- The next rectangle: nothing is copied yet. -/
theorem nextRect_refines (inv : SystemInv s)
    (step : systemStep params s .nextRect = some t) :
    Mirroring.Steps (s.abstract params) (t.abstract params) ∧ SystemInv t := by
  simp only [systemStep, Option.bind_eq_some_iff] at step
  obtain ⟨g, grabbing, step⟩ := step
  split at step
  · next r rects row todo =>
      split_ifs at step
      cases step
      have same : ({ g with rects, row := r.positions } : Grab).todo = g.todo := by
        ext p
        simp [Grab.todo, todo, row, dirtyArea_cons, DrmClipRect.mem_positions, or_comm]
      have unchanged : System.abstract params { s with
          grab := some { g with rects, row := r.positions } } = s.abstract params := by
        simp only [System.abstract, grabbing]
        rfl
      refine ⟨unchanged ▸ .refl, ⟨inv.driver, fun g' hg' => ?_, fun g' hg' => ?_,
        fun g' hg' begun => ?_⟩⟩
      · cases hg'
        exact inv.grabbing g grabbing
      · cases hg'
        rw [same]
        exact inv.current g grabbing
      · cases hg'
        have := (inv.composing g grabbing begun).1
        rw [todo] at this
        cases this
  · cases step

/-- What is copied is right, or it will be grabbed once more. -/
theorem copyPixel_refines (inv : SystemInv s)
    (step : systemStep params s .copyPixel = some t) :
    Mirroring.Steps (s.abstract params) (t.abstract params) ∧ SystemInv t := by
  simp only [systemStep, Option.bind_eq_some_iff] at step
  obtain ⟨g, grabbing, step⟩ := step
  split at step
  · cases step
  · next p row todo =>
      cases step
      have first : g.cursor = none := by
        by_contra begun
        have := (inv.composing g grabbing begun).2
        rw [todo] at this
        cases this
      have none : ∀ copied, ({ g with row, copied } : Grab).done = ∅ :=
        fun copied => Grab.done_eq_empty first
      have unchanged : System.abstract params { s with grab := some { g with
          row
          copied := Function.update g.copied p (some (s.memory g.efb p)) } } =
            s.abstract params := by
        refine Mirroring.State.ext rfl rfl rfl rfl ?_ ?_ rfl
        · simp only [System.abstract, grabbing, none, Grab.done_eq_empty first]
          rfl
        · simp [System.abstract, grabbing, none, Grab.done_eq_empty first]
      refine ⟨unchanged ▸ .refl, ⟨inv.driver, fun g' hg' => ?_, fun g' hg' q hq left => ?_,
        fun g' hg' begun => ?_⟩⟩
      · cases hg'
        exact inv.grabbing g grabbing
      · cases hg'
        by_cases here : q = p
        · subst here
          exact ⟨_, Function.update_self .., fun _ => Or.inl rfl⟩
        · obtain ⟨word, copied, fresh⟩ := inv.current g grabbing q hq fun h => left <| by
            simpa [Grab.todo, todo, here] using h
          exact ⟨word, (Function.update_of_ne here ..).trans copied, fresh⟩
      · cases hg'
        exact absurd first begun

/-- The pixels without the cursor over them are right as they are. -/
theorem composeCursor_refines (inv : SystemInv s)
    (step : systemStep params s .composeCursor = some t) :
    Mirroring.Steps (s.abstract params) (t.abstract params) ∧ SystemInv t := by
  simp only [systemStep, Option.bind_eq_some_iff] at step
  obtain ⟨g, grabbing, step⟩ := step
  split_ifs at step with ready
  obtain ⟨-, rects, row, first⟩ := ready
  cases step
  let g' : Grab :=
    { g with cursor := some (params.composePositions s.driver.device.cursor g.efb) }
  have todo : g.todo = ∅ := by simp [Grab.todo, rects, row, dirtyArea, cover_nil]
  have none : g.done = ∅ := Grab.done_eq_empty first
  refine ⟨?_,
    ⟨inv.driver, fun g' hg' => ?_, fun g' hg' p hp left => ?_, fun g' hg' _ => ?_⟩⟩
  · have current : ∀ p ∈ g'.done, ∃ value, g.copied p = some value ∧
        (value = (s.abstract params).source p ∨
          p ∈ (s.abstract params).unmarked ∪ (s.abstract params).dirty) := by
      rintro p ⟨inArea, _, ⟨⟩, uncovered⟩
      obtain ⟨word, copied, fresh⟩ :=
        inv.current g grabbing p inArea (todo ▸ Set.notMem_empty p)
      refine ⟨word, copied, (fresh first).elim (fun same => ?_) Or.inr⟩
      have visible : s.view params g.efb p = word := by
        rw [same]
        exact params.overlay_of_notMem
          (fun h => uncovered (params.mem_composePositions.mpr h)) _
      exact visible ▸ inv.view_eq_screen grabbing p
    have copied := Mirroring.Step.copy (s := s.abstract params) g'.done
      (fun p => if p ∈ g'.done then g.copied p else .none)
      (fun p hp => by rw [if_pos hp]; exact current p hp)
      (fun p hp => by simp [hp, System.abstract, grabbing, none])
    refine Relation.ReflTransGen.single ?_
    convert copied using 1
    refine Mirroring.State.ext rfl rfl rfl rfl ?_ rfl rfl
    simp only [System.abstract, grabbing, none, Set.sdiff_empty]
    rfl
  · cases hg'
    exact inv.grabbing g grabbing
  · cases hg'
    obtain ⟨word, copied, -⟩ := inv.current g grabbing p hp left
    exact ⟨word, copied, by rintro ⟨⟩⟩
  · cases hg'
    exact ⟨rects, row⟩

/-- The cursor is drawn over what the framebuffer shows now. -/
theorem composePixel_refines (inv : SystemInv s)
    (step : systemStep params s .composePixel = some t) :
    Mirroring.Steps (s.abstract params) (t.abstract params) ∧ SystemInv t := by
  simp only [systemStep, Option.bind_eq_some_iff] at step
  obtain ⟨g, grabbing, step⟩ := step
  split at step
  · next p left begun =>
      cases step
      let g' : Grab := { g with
        cursor := some left
        copied := Function.update g.copied p (some (s.view params g.efb p)) }
      have done : ∀ q, q ∈ g.done ↔ q ∈ g.area ∧ q ≠ p ∧ q ∉ left := fun q => by
        rw [Grab.mem_done begun, List.mem_cons, not_or]
      have done' : ∀ q, q ∈ g'.done ↔ q ∈ g.area ∧ q ∉ left := fun q => Grab.mem_done rfl
      refine ⟨?_,
        ⟨inv.driver, fun g' hg' => ?_, fun g' hg' q hq todo => ?_, fun g' hg' _ => ?_⟩⟩
      · have copied := Mirroring.Step.copy (s := s.abstract params) (g'.done \ g.done)
          (fun q => if q ∈ g'.done then g'.copied q else none)
          (fun q hq => by
            obtain ⟨fresh, unready⟩ := hq
            obtain rfl : q = p := by
              by_contra other
              exact unready
                ((done q).mpr ⟨((done' q).mp fresh).1, other, ((done' q).mp fresh).2⟩)
            rw [if_pos fresh]
            exact ⟨_, Function.update_self .., inv.view_eq_screen grabbing q⟩)
          (fun q hq => by
            have same : q ∈ g'.done ↔ q ∈ g.done :=
              ⟨fun h => by by_contra other; exact hq ⟨h, other⟩,
                fun h => (done' q).mpr ⟨((done q).mp h).1, ((done q).mp h).2.2⟩⟩
            simp only [System.abstract, grabbing, same]
            split
            · next ready => exact Function.update_of_ne ((done q).mp ready).2.1 ..
            · rfl)
        refine Relation.ReflTransGen.single ?_
        convert copied using 1
        refine Mirroring.State.ext rfl rfl rfl rfl ?_ rfl rfl
        ext q
        have := done q
        have := done' q
        simp only [System.abstract, grabbing, Set.mem_sdiff]
        show q ∈ g.area ∧ q ∉ g'.done ↔ _
        tauto
      · cases hg'
        exact inv.grabbing g grabbing
      · cases hg'
        obtain ⟨word, copied, -⟩ := inv.current g grabbing q hq todo
        by_cases here : q = p
        · subst here
          exact ⟨_, Function.update_self .., nofun⟩
        · exact ⟨word, (Function.update_of_ne here ..).trans copied, nofun⟩
      · cases hg'
        exact inv.composing g grabbing (by rw [begun]; exact Option.some_ne_none _)
  · cases step

/-- Where the cursor is not composed, the copies count as they are if there is no
cursor. -/
theorem skipCursor_refines (inv : SystemInv s)
    (step : systemStep params s .skipCursor = some t) :
    Mirroring.Steps (s.abstract params) (t.abstract params) ∧ SystemInv t := by
  simp only [systemStep, Option.bind_eq_some_iff] at step
  obtain ⟨g, grabbing, step⟩ := step
  split at step
  · next p left begun =>
      cases step
      let g' : Grab := { g with cursor := some [] }
      have all : g'.done = g.area := Grab.done_eq_area rfl
      refine ⟨?_,
        ⟨inv.driver, fun g' hg' => ?_, fun g' hg' q hq todo => ?_, fun g' hg' _ => ?_⟩⟩
      · have failed := Mirroring.Step.fail (s := s.abstract params)
          (fun q => if q ∈ g'.done then g.copied q else none) (s.lost ∪ g.area \ g.done) (by
            simp only [System.abstract, grabbing]
            rintro q (h | other)
            · exact h
            · refine Or.inr ?_
              by_contra ready
              refine other ?_
              by_cases inArea : q ∈ g.area
              · rw [if_pos (all ▸ inArea), if_pos (not_not.mp fun h => ready ⟨inArea, h⟩)]
              · rw [if_neg (all ▸ inArea), if_neg fun h => inArea h.1])
        refine Relation.ReflTransGen.single ?_
        convert failed using 1
        refine Mirroring.State.ext rfl rfl rfl rfl ?_ rfl rfl
        show g.area \ g'.done = ∅
        rw [all, Set.sdiff_self]
      · cases hg'
        exact inv.grabbing g grabbing
      · cases hg'
        obtain ⟨word, copied, -⟩ := inv.current g grabbing q hq todo
        exact ⟨word, copied, nofun⟩
      · cases hg'
        exact inv.composing g grabbing (by rw [begun]; exact Option.some_ne_none _)
  · cases step

/-- What is on the screen is not changed by the end of a grab. -/
theorem screen_of_grabbed (params : Params) {driver : DriverState} {efb : EvdiFramebuffer}
    (ended : driverStep s.driver (.grabbed efb) = some driver) :
    ({ s with driver } : System).screen params = s.screen params ∧
      ({ s with driver } : System).dirty = s.dirty := by
  obtain ⟨painter, cursor⟩ := device_of_grabbed ended
  simp [System.screen, System.scanoutFb, System.view, System.dirty, painter, cursor]

/-- A grab that is broken off: all of it is lost. -/
theorem fail_refines (inv : SystemInv s) (step : systemStep params s .fail = some t) :
    Mirroring.Steps (s.abstract params) (t.abstract params) ∧ SystemInv t := by
  simp only [systemStep, Option.bind_eq_some_iff] at step
  obtain ⟨g, grabbing, step⟩ := step
  split_ifs at step with first
  obtain ⟨driver, ended, rfl⟩ := Option.map_eq_some_iff.mp step
  obtain ⟨screen, dirty⟩ := screen_of_grabbed params ended
  refine ⟨?_, ⟨inv.driver.step ended, nofun, nofun, nofun⟩⟩
  have failed :=
    Mirroring.Step.fail (s := s.abstract params) (fun _ => none) (s.lost ∪ g.area) (by
    simp [System.abstract, grabbing, Grab.done_eq_empty first])
  refine Relation.ReflTransGen.single ?_
  convert failed using 1
  exact Mirroring.State.ext screen rfl rfl dirty rfl rfl rfl

/-- A grab that comes to its end: its copies are the picture. -/
theorem deliver_refines (inv : SystemInv s) (step : systemStep params s .deliver = some t) :
    Mirroring.Steps (s.abstract params) (t.abstract params) ∧ SystemInv t := by
  simp only [systemStep, Option.bind_eq_some_iff] at step
  obtain ⟨g, grabbing, step⟩ := step
  split_ifs at step with complete
  obtain ⟨driver, ended, rfl⟩ := Option.map_eq_some_iff.mp step
  obtain ⟨screen, dirty⟩ := screen_of_grabbed params ended
  refine ⟨?_, ⟨inv.driver.step ended, nofun, nofun, nofun⟩⟩
  have all : g.done = dirtyArea g.reported := Grab.done_eq_area complete
  have none : (s.abstract params).taken = ∅ := by
    simp [System.abstract, grabbing, all, Grab.area]
  have delivered := Mirroring.Step.deliver (s := s.abstract params) none
  refine Relation.ReflTransGen.single ?_
  convert delivered using 1
  refine Mirroring.State.ext screen ?_ rfl dirty none.symm rfl rfl
  funext p
  by_cases reported : p ∈ dirtyArea g.reported <;>
    simp [System.abstract, Mirroring.State.shown, grabbing, all, reported]

/-- **The system is such a mirror**: one case per action. -/
theorem systemStep_refines {action : Action} (inv : SystemInv s)
    (step : systemStep params s action = some t) :
    Mirroring.Steps (s.abstract params) (t.abstract params) ∧ SystemInv t := by
  cases action with
  | draw efb content =>
      cases step
      exact advance_step inv inv.driver (Set.union_empty _).subset rfl
  | drive input =>
      rw [systemStep] at step
      split_ifs at step with other
      obtain ⟨driver, driven, step⟩ := Option.bind_eq_some_iff.mp step
      split_ifs at step
      cases step
      exact advance_step inv (inv.driver.step driven)
        (dirtyArea_of_step inv.driver driven
          (s.driver.takes_eq_false (Bool.eq_false_iff.mpr other))) rfl
  | grab cmd => exact grab_refines inv step
  | nextRect => exact nextRect_refines inv step
  | copyPixel => exact copyPixel_refines inv step
  | composeCursor => exact composeCursor_refines inv step
  | composePixel => exact composePixel_refines inv step
  | skipCursor => exact skipCursor_refines inv step
  | fail => exact fail_refines inv step
  | deliver => exact deliver_refines inv step

end Steps

/-! ## A grab that is not disturbed -/

/-- The pixels of a grab under way. -/
def System.inFlight (s : System) : Set Pos :=
  match s.grab with
  | none => ∅
  | some g => g.area

/-- **What a faithful mirror means**: the picture is right wherever nothing is
outstanding. -/
theorem System.picture_eq_screen {params : Params} {t : System}
    (faithful : (t.abstract params).Faithful) {p : Pos}
    (settled : p ∉ t.unmarked ∪ t.dirty ∪ t.inFlight ∪ t.lost) :
    t.picture p = t.screen params p := by
  simp only [Set.mem_union, not_or] at settled
  obtain ⟨⟨⟨unmarked, dirty⟩, inFlight⟩, lost⟩ := settled
  have notTaken : p ∉ (t.abstract params).taken ∧ (t.abstract params).staged p = none := by
    cases grabbing : t.grab with
    | none => simp [System.abstract, grabbing]
    | some g =>
        simp only [System.inFlight, grabbing] at inFlight
        simp [System.abstract, grabbing, inFlight,
          show p ∉ g.done from fun h => inFlight h.1]
  have right := faithful p (by
    simp only [Mirroring.State.mem_pending, not_or]
    exact ⟨⟨⟨unmarked, dirty⟩, notTaken.1⟩, lost⟩)
  rw [Mirroring.State.shown, notTaken.2] at right
  exact right

/-- `g'` is `g` when these pixels are copied. -/
structure Grab.Copies (content : Pos → Word) (S : Set Pos) (g g' : Grab) : Prop where
  cmd : g'.cmd = g.cmd
  efb : g'.efb = g.efb
  reported : g'.reported = g.reported
  copied : ∀ p ∈ S, g'.copied p = some (content p)
  other : ∀ p ∉ S, g'.copied p = g.copied p

/-- First these pixels, then those. -/
theorem Grab.Copies.trans {content : Pos → Word} {S S' : Set Pos} {g g' g'' : Grab}
    (first : g.Copies content S g') (second : g'.Copies content S' g'') :
    g.Copies content (S ∪ S') g'' where
  cmd := second.cmd.trans first.cmd
  efb := second.efb.trans first.efb
  reported := second.reported.trans first.reported
  copied := by
    intro p hp
    by_cases again : p ∈ S'
    · exact second.copied p again
    · rw [second.other p again]
      exact first.copied p (hp.resolve_right again)
  other := fun p hp => (second.other p fun h => hp (Or.inr h)).trans
    (first.other p fun h => hp (Or.inl h))

/-- One pixel, and the others after it. -/
theorem Grab.Copies.cons {content : Pos → Word} {p : Pos} {row : List Pos} {g g' g'' : Grab}
    (first : g.Copies content {p} g') (rest : g'.Copies content {q | q ∈ row} g'') :
    g.Copies content {q | q ∈ p :: row} g'' := by
  have pixels : {q | q ∈ p :: row} = {p} ∪ {q | q ∈ row} := by
    ext q
    simp
  exact pixels ▸ first.trans rest

section Undisturbed

variable (params : Params)

/-- One row after the other, to the end of a rectangle. -/
theorem run_copyPixel {s : System} {g : Grab} {row : List Pos} (grabbing : s.grab = some g)
    (left : g.row = row) :
    ∃ g', run (systemStep params) s (List.replicate row.length .copyPixel) =
        some { s with grab := some g' } ∧
      g'.rects = g.rects ∧ g'.row = [] ∧ g'.cursor = g.cursor ∧
      g.Copies (s.memory g.efb) {p | p ∈ row} g' := by
  induction row generalizing s g with
  | nil =>
      refine ⟨g, ?_, rfl, left, rfl, ⟨rfl, rfl, rfl, by simp, by simp⟩⟩
      simp [← grabbing]
  | cons p row ih =>
      let g₁ : Grab := { g with
        row
        copied := Function.update g.copied p (some (s.memory g.efb p)) }
      have step : systemStep params s .copyPixel = some { s with grab := some g₁ } := by
        simp [systemStep, grabbing, left, g₁]
      obtain ⟨g', rest, rects, ended, cursor, copies⟩ :=
        ih (s := { s with grab := some g₁ }) (g := g₁) rfl rfl
      have first : g.Copies (s.memory g.efb) {p} g₁ := by
        refine ⟨rfl, rfl, rfl, ?_, fun q hq => Function.update_of_ne hq _ _⟩
        rintro q rfl
        exact Function.update_self _ _ _
      refine ⟨g', ?_, rects, ended, cursor, first.cons copies⟩
      rw [List.length_cons, List.replicate_succ, run_cons, step, Option.bind_some, rest]

/-- The first pass of a grab, when it is left alone. -/
def restOfGrab (rects : List DrmClipRect) : List Action :=
  rects.flatMap fun r => .nextRect :: List.replicate r.positions.length .copyPixel

/-- One rectangle after the other. -/
theorem run_restOfGrab {s : System} {g : Grab} {rects : List DrmClipRect}
    (grabbing : s.grab = some g) (begun : g.row = []) (left : g.rects = rects)
    (fits : g.BufferFits) (within : ∀ r ∈ rects, r.Within g.efb.width g.efb.height) :
    ∃ g', run (systemStep params) s (restOfGrab rects) = some { s with grab := some g' } ∧
      g'.rects = [] ∧ g'.row = [] ∧ g'.cursor = g.cursor ∧
      g.Copies (s.memory g.efb) (dirtyArea rects) g' := by
  induction rects generalizing s g with
  | nil =>
      have none : dirtyArea [] = ∅ := cover_nil
      refine ⟨g, ?_, left, begun, rfl, ⟨rfl, rfl, rfl, by simp [none], by simp⟩⟩
      simp [← grabbing, restOfGrab]
  | cons r rects ih =>
      let g₁ : Grab := { g with rects, row := r.positions }
      have here := within r List.mem_cons_self
      have step : systemStep params s .nextRect = some { s with grab := some g₁ } := by
        simp [systemStep, grabbing, begun, left, fits, here.x2_le_width,
          here.y2_le_height, g₁]
      obtain ⟨g₂, copied, rects₂, row₂, cursor₂, first⟩ :=
        run_copyPixel params (s := { s with grab := some g₁ }) (g := g₁) rfl rfl
      have fits₂ : g₂.BufferFits := by
        rw [Grab.BufferFits, first.cmd, first.efb]
        exact fits
      obtain ⟨g', rest, rects', row', cursor', second⟩ :=
        ih (s := { s with grab := some g₂ }) (g := g₂) rfl row₂ rects₂ fits₂ (by
          rw [first.efb]
          exact fun r hr => within r (List.mem_cons_of_mem _ hr))
      have pixels : dirtyArea (r :: rects) = {p | p ∈ r.positions} ∪ dirtyArea rects := by
        ext p
        simp [dirtyArea_cons, DrmClipRect.mem_positions]
      have started : g.Copies (s.memory g.efb) {p | p ∈ r.positions} g₂ :=
        ⟨first.cmd, first.efb, first.reported, first.copied, first.other⟩
      refine ⟨g', ?_, rects', row', cursor'.trans cursor₂, ?_⟩
      · have split : restOfGrab (r :: rects) = .nextRect ::
            (List.replicate r.positions.length .copyPixel ++ restOfGrab rects) := rfl
        rw [split, run_cons, step, Option.bind_some, run_append, copied,
          Option.bind_some, rest]
      · rw [first.efb] at second
        rw [pixels]
        exact started.trans second

/-- The cursor, pixel by pixel. -/
theorem run_composePixel {s : System} {g : Grab} {left : List Pos}
    (grabbing : s.grab = some g) (begun : g.cursor = some left) :
    ∃ g', run (systemStep params) s (List.replicate left.length .composePixel) =
        some { s with grab := some g', lost := s.lost \ (g.area \ g.done) } ∧
      g'.cursor = some [] ∧ g.Copies (s.view params g.efb) {p | p ∈ left} g' := by
  induction left generalizing s g with
  | nil =>
      refine ⟨g, ?_, begun, ⟨rfl, rfl, rfl, by simp, by simp⟩⟩
      simp [← grabbing, Grab.done_eq_area begun]
  | cons p left ih =>
      let g₁ : Grab := { g with
        cursor := some left
        copied := Function.update g.copied p (some (s.view params g.efb p)) }
      let s₁ : System := { s with grab := some g₁, lost := s.lost \ (g₁.done \ g.done) }
      have step : systemStep params s .composePixel = some s₁ := by
        simp [systemStep, grabbing, begun, g₁, s₁]
      obtain ⟨g', rest, ended, copies⟩ := ih (s := s₁) (g := g₁) rfl rfl
      have first : g.Copies (s.view params g.efb) {p} g₁ := by
        refine ⟨rfl, rfl, rfl, ?_, fun q hq => Function.update_of_ne hq _ _⟩
        rintro q rfl
        exact Function.update_self _ _ _
      have lost : s₁.lost \ (g₁.area \ g₁.done) = s.lost \ (g.area \ g.done) := by
        have grown : g.done ⊆ g₁.done := fun q hq => by
          have := (Grab.mem_done begun).mp hq
          exact (Grab.mem_done rfl).mpr ⟨this.1, fun h => this.2 (List.mem_cons_of_mem _ h)⟩
        show (s.lost \ (g₁.done \ g.done)) \ (g.area \ g₁.done) = _
        have inArea : g₁.done ⊆ g.area := fun q hq => hq.1
        rw [Set.sdiff_sdiff, Set.union_comm, Set.sdiff_union_sdiff_cancel inArea grown]
      refine ⟨g', ?_, ended, first.cons copies⟩
      rw [List.length_cons, List.replicate_succ, run_cons, step,
        Option.bind_some, rest, lost]

/-- The second pass. -/
def cursorOfGrab (pixels : ℕ) : List Action :=
  .composeCursor :: List.replicate pixels .composePixel

/-- Together they show the cursor over the framebuffer's content. -/
theorem run_cursorOfGrab {s : System} {g : Grab} (grabbing : s.grab = some g)
    (fits : g.BufferFits) (rects : g.rects = []) (row : g.row = [])
    (first : g.cursor = none) {S : Set Pos}
    (copied : ∀ p ∈ S, g.copied p = some (s.memory g.efb p)) :
    ∃ g', run (systemStep params) s
        (cursorOfGrab (params.composePositions s.driver.device.cursor g.efb).length) =
          some { s with grab := some g', lost := s.lost \ g.area } ∧
      g'.cursor = some [] ∧ g'.efb = g.efb ∧ g'.reported = g.reported ∧
      ∀ p ∈ S, g'.copied p = some (s.view params g.efb p) := by
  let positions := params.composePositions s.driver.device.cursor g.efb
  let g₁ : Grab := { g with cursor := some positions }
  let s₁ : System := { s with grab := some g₁, lost := s.lost \ g₁.done }
  have step : systemStep params s .composeCursor = some s₁ := by
    simp [systemStep, grabbing, fits, rects, row, first, g₁, s₁, positions]
  obtain ⟨g', composed, complete, copies⟩ :=
    run_composePixel params (s := s₁) (g := g₁) rfl rfl
  have lost : s₁.lost \ (g₁.area \ g₁.done) = s.lost \ g.area := by
    show (s.lost \ g₁.done) \ (g.area \ g₁.done) = _
    rw [Set.sdiff_sdiff, Set.union_sdiff_cancel fun p hp => hp.1]
  refine ⟨g', ?_, complete, copies.efb, copies.reported, fun p hp => ?_⟩
  · rw [cursorOfGrab, run_cons, step, Option.bind_some, composed, lost]
  · by_cases covered : p ∈ positions
    · exact copies.copied p covered
    · have uncovered := params.overlay_of_notMem
        (fun h => covered (params.mem_composePositions.mpr h)) (s.memory g.efb)
      rw [copies.other p covered]
      exact (copied p hp).trans (congrArg some uncovered.symm)

/-- A grab with nothing in between. -/
def wholeGrab (cmd : EvdiDevice.Grabpix) (rects : List DrmClipRect) (pixels : ℕ) :
    List Action :=
  .grab cmd :: (restOfGrab rects ++ cursorOfGrab pixels ++ [.deliver])

/-- What it does. -/
structure System.GrabsAll (s u : System) (efb : EvdiFramebuffer)
    (rects : List DrmClipRect) : Prop where
  grab : u.grab = none
  scanout : u.scanoutFb = s.scanoutFb
  screen : u.screen params = s.screen params
  unmarked : u.unmarked = s.unmarked
  dirty : u.dirty = ∅
  lost : u.lost = s.lost \ dirtyArea rects
  copied : ∀ p ∈ dirtyArea rects, u.picture p = s.view params efb p
  other : ∀ p ∉ dirtyArea rects, u.picture p = s.picture p

/-- **A grab with nothing in between** comes to its end with everything copied. -/
theorem run_wholeGrab {s : System} {cmd : EvdiDevice.Grabpix} {device : EvdiDevice}
    {efb : EvdiFramebuffer} {rects : List DrmClipRect} (idle : s.grab = none)
    (taken : s.driver.device.grabpix cmd = (device, .ok (efb, rects)))
    (fits : cmd.bufWidth = efb.width ∧ cmd.bufHeight = efb.height)
    (within : ∀ r ∈ rects, r.Within efb.width efb.height) :
    ∃ u, run (systemStep params) s
        (wholeGrab cmd rects (params.composePositions s.driver.device.cursor efb).length) =
          some u ∧
      s.GrabsAll params u efb rects := by
  let s₁ : System := { s with
    driver := { s.driver with device, grabbing := efb :: s.driver.grabbing }
    grab := some (.start cmd efb rects) }
  have begun : systemStep params s (.grab cmd) = some s₁ := by
    simp [systemStep, idle, taken, s₁]
  obtain ⟨scanout, dirty, cursor⟩ : s₁.scanoutFb = s.scanoutFb ∧ s₁.dirty = ∅ ∧
      device.cursor = s.driver.device.cursor := by
    rcases s.driver.device.grabpix_cases cmd with ⟨_, _, failed, -⟩ | ⟨_, _, taken', -⟩
    · rw [taken] at failed
      cases failed
    · rw [taken] at taken'
      cases taken'
      exact ⟨rfl, cover_nil, EvdiDevice.getFb_cursor ..⟩
  have view : s₁.view params = s.view params := by
    funext efb
    simp only [System.view, s₁, cursor]
  obtain ⟨g₁, copied, noRects, noRow, noCursor, copies⟩ :=
    run_restOfGrab params (s := s₁) (g := .start cmd efb rects) rfl rfl
      (show _ = rects from rfl) fits within
  have fits₁ : g₁.BufferFits := by
    rw [Grab.BufferFits, copies.cmd, copies.efb]
    exact fits
  have area : g₁.area = dirtyArea rects := congrArg dirtyArea copies.reported
  have efb₁ : g₁.efb = efb := copies.efb
  let s₂ : System := { s₁ with grab := some g₁ }
  obtain ⟨g₂, composed, complete, efb₂, reported₂, words⟩ :=
    run_cursorOfGrab params (s := s₂) (g := g₁) rfl fits₁ noRects noRow noCursor
      (S := dirtyArea rects) (fun p hp => by rw [copies.copied p hp, efb₁]; rfl)
  rw [efb₁, area, show s₂.driver.device.cursor = _ from cursor] at composed
  let s₃ : System := { s₂ with grab := some g₂, lost := s₂.lost \ dirtyArea rects }
  let driver : DriverState := { s.driver with device := device.putFb (some efb) }
  have reported : g₂.reported = rects := reported₂.trans copies.reported
  have ended : driverStep s₃.driver (.grabbed efb) = some driver := by
    simp [driverStep, s₃, s₂, s₁, driver]
  let u : System := { s₃ with
    driver
    grab := none
    picture := fun p =>
      if p ∈ dirtyArea g₂.reported then (g₂.copied p).getD (s.picture p) else s.picture p }
  have delivered : systemStep params s₃ .deliver = some u := by
    have same : g₂.efb = efb := efb₂.trans efb₁
    simp only [systemStep, s₃, Option.bind_some, complete, if_true, same]
    rw [show driverStep s₂.driver (.grabbed efb) = some driver from ended]
    rfl
  obtain ⟨screen, dirty'⟩ := screen_of_grabbed (s := s₃) params ended
  have scanout' : u.scanoutFb = s₃.scanoutFb :=
    congrArg EvdiPainter.scanoutFb (device_of_grabbed ended).1
  refine ⟨u, ?_, rfl, scanout'.trans scanout, ?_, rfl, dirty'.trans dirty, rfl, ?_, ?_⟩
  · rw [wholeGrab, run_cons, begun, Option.bind_some, run_append, run_append, copied,
      Option.bind_some, composed, Option.bind_some, run_cons, delivered]
    rfl
  · refine screen.trans ?_
    show s₁.screen params = s.screen params
    rw [System.screen, System.screen, scanout, view]
  · intro p hp
    show (if p ∈ dirtyArea g₂.reported then _ else _) = _
    rw [reported, if_pos hp, words p hp, efb₁, ← view]
    rfl
  · intro p hp
    show (if p ∈ dirtyArea g₂.reported then _ else _) = _
    rw [reported, if_neg hp]

end Undisturbed

/-- Nothing but what no one marked is left. -/
theorem System.GrabsAll.settled {params : Params} {s u : System} {efb : EvdiFramebuffer}
    {rects : List DrmClipRect} (all : s.GrabsAll params u efb rects) {p : Pos}
    (unmarked : p ∉ s.unmarked) (lost : p ∉ s.lost \ dirtyArea rects) :
    p ∉ u.unmarked ∪ u.dirty ∪ u.inFlight ∪ u.lost := by
  simp only [Set.mem_union, not_or, all.unmarked, all.dirty, all.lost]
  exact ⟨⟨⟨unmarked, Set.notMem_empty p⟩, by simp [System.inFlight, all.grab]⟩, lost⟩

/-! ## While the mode stays -/

/-- A framebuffer that is set has this size. -/
def Action.OfMode (width height : ℕ) : Action → Prop
  | .drive input => input.OfMode width height
  | _ => True

/-- What an action is to the driver. -/
theorem driver_of_systemStep {params : Params} {s t : System} {action : Action}
    (step : systemStep params s action = some t) :
    t.driver = s.driver ∨ ∃ input, driverStep s.driver input = some t.driver ∧
      (action = .drive input ∨ input.isGrab = true) := by
  rcases systemStep_cases step with ⟨driver, _, _, rfl, same | driven⟩ |
    ⟨cmd, _, driver, -, driven, rfl⟩ | ⟨_, _, _, -, rfl, -⟩ |
    ⟨g, driver, _, _, -, ended, rfl, -⟩
  · exact Or.inl same
  · exact Or.inr driven
  · exact Or.inr ⟨.grabpix cmd, driven, Or.inr rfl⟩
  · exact Or.inl rfl
  · exact Or.inr ⟨.grabbed g.efb, ended, Or.inr rfl⟩

/-- The mode is a matter of the driver alone. -/
theorem fixedMode_of_systemStep {params : Params} {s t : System} {action : Action}
    {width height : ℕ} (mode : FixedMode width height s.driver)
    (ofMode : action.OfMode width height) (step : systemStep params s action = some t) :
    FixedMode width height t.driver := by
  rcases driver_of_systemStep step with same | ⟨input, driven, rfl | grabs⟩
  · rwa [same]
  · exact mode.step ofMode driven
  · refine mode.step ?_ driven
    cases input <;> trivial

/-- What is marked lies in the framebuffer. -/
theorem fixedMode_of_run {params : Params} {s t : System} {actions : List Action}
    {width height : ℕ} (mode : FixedMode width height s.driver)
    (ofMode : ∀ action ∈ actions, action.OfMode width height)
    (h : run (systemStep params) s actions = some t) : FixedMode width height t.driver := by
  induction actions generalizing s with
  | nil => cases h; exact mode
  | cons action actions ih =>
      rw [run_cons, Option.bind_eq_some_iff] at h
      obtain ⟨s', step, rest⟩ := h
      exact ih (fixedMode_of_systemStep mode (ofMode action List.mem_cons_self) step)
        (fun a ha => ofMode a (List.mem_cons_of_mem _ ha)) rest

/-! ## A display of two pixels -/

def twoPixels : EvdiFramebuffer := ⟨1, 2, 1, 8, 32, 0⟩

/-- A cursor of 2x2 pixels, half of it over the right pixel. -/
def whiteCursor : EvdiCursor :=
  ⟨true, 1, 0, 2, 2, 0, 0, 0, 8, some ⟨16, some (List.replicate 16 255)⟩⟩

/-- The cursor is blended in. -/
def blending : Params := ⟨true, fun _ => 32⟩

/-- Every byte of a framebuffer is 7. -/
def sevens : System :=
  .start whiteCursor (fun efb => scanoutWord efb (List.replicate 8 7)) fun _ => 0

/-- The right pixel is marked. -/
def rightMarked : List Action :=
  [.drive (.setScanoutBuffer (some twoPixels)), .drive (.markDirty ⟨1, 0, 2, 1⟩)]

/-- A single rectangle is reported as it is. -/
theorem grabpix_of_singleton {evdi : EvdiDevice} {efb : EvdiFramebuffer} {r : DrmClipRect}
    (scanout : evdi.painter.scanoutFb = some efb) (single : evdi.painter.dirtyRects = [r])
    {cmd : EvdiDevice.Grabpix} (mode : cmd.mode = EvdiDevice.grabpixModeDirty)
    (space : 1 ≤ cmd.numRects) : ∃ device, evdi.grabpix cmd = (device, .ok (efb, [r])) := by
  have merged : mergeDirtyRects [r] = [r] := by simp [mergeDirtyRects, mergeFrom]
  have room : ¬([r].length > cmd.numRects) := not_lt.mpr space
  refine ⟨{ evdi with painter.dirtyRects := [] }.getFb (some efb), ?_⟩
  simp only [EvdiDevice.grabpix, mode, ne_eq, not_true, if_false, not_lt.mpr space, single,
    merged, if_neg room, scanout]

/-- The right pixel is marked, and a grab would take it. -/
theorem run_rightMarked : ∃ t device,
    run (systemStep blending) sevens rightMarked = some t ∧
      t.grab = none ∧ t.scanoutFb = some twoPixels ∧ t.memory = sevens.memory ∧
      t.driver.device.cursor = whiteCursor ∧
      t.driver.device.grabpix ⟨1, 2, 1, 16⟩ = (device, .ok (twoPixels, [⟨1, 0, 2, 1⟩])) ∧
      ((1, 0) : Pos) ∉ t.unmarked ∪ t.lost := by
  obtain ⟨t, marked, idle, scanout, memory, cursor, dirty, settled⟩ : ∃ t,
      run (systemStep blending) sevens rightMarked = some t ∧ t.grab = none ∧
        t.scanoutFb = some twoPixels ∧ t.memory = sevens.memory ∧
        t.driver.device.cursor = whiteCursor ∧
        t.driver.device.painter.dirtyRects = [⟨1, 0, 2, 1⟩] ∧
        ((1, 0) : Pos) ∉ t.unmarked ∪ t.lost := by
    refine ⟨_, rfl, rfl, rfl, rfl, rfl, rfl, ?_⟩
    rintro (⟨-, unmarked⟩ | ⟨⟨⟩⟩)
    exact unmarked ⟨twoPixels, rfl, by decide, by decide⟩
  obtain ⟨device, taken⟩ := grabpix_of_singleton scanout dirty
    (show (⟨1, 2, 1, 16⟩ : EvdiDevice.Grabpix).mode = _ from rfl) (by decide)
  exact ⟨t, device, marked, idle, scanout, memory, cursor, taken, settled⟩

/-- It is inside the frame. -/
theorem within_rightMarked {t : System}
    (marked : run (systemStep blending) sevens rightMarked = some t) :
    ∀ r ∈ t.driver.device.painter.dirtyRects,
      r.Within twoPixels.width twoPixels.height := by
  have start : FixedMode twoPixels.width twoPixels.height sevens.driver :=
    ⟨Nat.zero_le _, nofun, nofun⟩
  exact (fixedMode_of_run start (by simp [rightMarked, Action.OfMode, DriverInput.OfMode])
    marked).within

/-! ## What the client shows -/

section Pictures

variable {params : Params} {cursor : EvdiCursor} {memory : EvdiFramebuffer → Pos → Word}
  {picture : Pos → Word} {actions : List Action} {t : System}

/-- **Every run** keeps the mirror faithful, by its steps. -/
theorem faithful_of_run
    (h : run (systemStep params) (.start cursor memory picture) actions = some t) :
    (t.abstract params).Faithful ∧ SystemInv t := by
  refine invariant_of_run (P := fun s => (s.abstract params).Faithful ∧ SystemInv s) ?_
    ⟨?_, .start ..⟩ h
  · rintro s action t ⟨faithful, inv⟩ step
    obtain ⟨steps, inv'⟩ := systemStep_refines inv step
    exact ⟨steps.faithful faithful, inv'⟩
  · intro p hp
    exact absurd (Or.inl (Or.inl (Or.inl (Set.mem_univ p)))) hp

/-- **No damage is lost**: in every interleaving a pixel of the client's picture is what
is on the screen, the cursor included, unless it changed and `evdi_painter_mark_dirty`
was not called for it since, is marked and not yet grabbed, is in a grab under way, or
was in one that failed. -/
theorem picture_of_run
    (h : run (systemStep params) (.start cursor memory picture) actions = some t) {p : Pos}
    (settled : p ∉ t.unmarked ∪ t.dirty ∪ t.inFlight ∪ t.lost) :
    t.picture p = t.screen params p :=
  System.picture_eq_screen (faithful_of_run h).1 settled

/-- One pixel is marked and grabbed, with the cursor over it. -/
theorem picture_of_run_right : ∃ u,
    run (systemStep blending) sevens
        (rightMarked ++ wholeGrab ⟨1, 2, 1, 16⟩ [⟨1, 0, 2, 1⟩] 1) = some u ∧
      u.picture (1, 0) = u.screen blending (1, 0) := by
  obtain ⟨t, device, marked, idle, -, -, cursor, taken, settled⟩ := run_rightMarked
  obtain ⟨u, grabbed, all⟩ := run_wholeGrab blending idle taken ⟨rfl, rfl⟩
    (List.forall_mem_singleton.mpr ⟨by decide, by decide, by decide, by decide⟩)
  have onePixel : (blending.composePositions whiteCursor twoPixels).length = 1 := by decide
  rw [cursor, onePixel] at grabbed
  have fromStart : run (systemStep blending) sevens
      (rightMarked ++ wholeGrab ⟨1, 2, 1, 16⟩ [⟨1, 0, 2, 1⟩] 1) = some u := by
    rw [run_append, marked, Option.bind_some, grabbed]
  exact ⟨u, fromStart, picture_of_run fromStart
    (all.settled (fun h => settled (Or.inl h)) fun h => settled (Or.inr h.1))⟩

/-- **One grab catches up**: whatever has happened, when there is time for one grab into
a buffer of the right size, the picture is the screen afterwards, where nothing changed
that was not marked.  What is marked has to lie in the framebuffer, as it does while the
mode stays (`fixedMode_of_run`): "rect size may correspond to previous resolution", and
a grab of such a rectangle fails. -/
theorem wholeGrab_catchesUp {efb : EvdiFramebuffer}
    (h : run (systemStep params) (.start cursor memory picture) actions = some t)
    (idle : t.grab = none) (scanout : t.scanoutFb = some efb) {cmd : EvdiDevice.Grabpix}
    (mode : cmd.mode = EvdiDevice.grabpixModeDirty) (space : 1 ≤ cmd.numRects)
    (fits : cmd.bufWidth = efb.width ∧ cmd.bufHeight = efb.height)
    (within : ∀ r ∈ t.driver.device.painter.dirtyRects, r.Within efb.width efb.height) :
    ∃ rects pixels u, run (systemStep params) t (wholeGrab cmd rects pixels) = some u ∧
      u.screen params = t.screen params ∧
      ∀ p ∉ t.unmarked ∪ t.lost, u.picture p = u.screen params p := by
  obtain ⟨device, rects, taken, merges⟩ := EvdiDevice.grabpix_of_scanout scanout mode space
  obtain ⟨u, grabbed, all⟩ := run_wholeGrab params idle taken fits
    (within_of_merges merges within)
  let pixels := (params.composePositions t.driver.device.cursor efb).length
  refine ⟨rects, pixels, u, grabbed, all.screen, fun p hp => ?_⟩
  have fromStart : run (systemStep params) (.start cursor memory picture)
      (actions ++ wholeGrab cmd rects pixels) = some u := by
    rw [run_append, h, Option.bind_some, grabbed]
  exact System.picture_eq_screen (faithful_of_run fromStart).1
    (all.settled (fun h => hp (Or.inl h)) fun h => hp (Or.inr h.1))

/-- The same pixel, caught up with. -/
theorem wholeGrab_catchesUp_right : ∃ t rects pixels u,
    run (systemStep blending) sevens rightMarked = some t ∧
    run (systemStep blending) t (wholeGrab ⟨1, 2, 1, 16⟩ rects pixels) = some u ∧
    u.picture (1, 0) = u.screen blending (1, 0) := by
  obtain ⟨t, -, marked, idle, scanout, -, -, -, settled⟩ := run_rightMarked
  obtain ⟨rects, pixels, u, grabbed, -, shown⟩ := wholeGrab_catchesUp marked idle scanout
    (show (⟨1, 2, 1, 16⟩ : EvdiDevice.Grabpix).mode = _ from rfl) (by decide) ⟨rfl, rfl⟩
    (within_rightMarked marked)
  exact ⟨t, rects, pixels, u, marked, grabbed, shown _ settled⟩

/-- The damage of a page flip. -/
def flip (efb : EvdiFramebuffer) : List DriverInput :=
  [.setScanoutBuffer (some efb), .markDirty ⟨0, 0, u16 efb.width, u16 efb.height⟩]

/-- It is what `evdi_plane_atomic_update` does for a framebuffer that is not the old
one. -/
theorem run_flip (s : DriverState) {oldFb : Option EvdiFramebuffer} {efb : EvdiFramebuffer}
    (other : some efb ≠ oldFb) :
    run driverStep s (flip efb) =
      some { s with device := s.device.planeAtomicUpdate true true oldFb (some efb) } := by
  simp [flip, run_cons, driverStep, EvdiDevice.planeAtomicUpdate, other]

/-- After a page flip. -/
structure System.Flipped (t s : System) (efb : EvdiFramebuffer) : Prop where
  grab : s.grab = t.grab
  memory : s.memory = t.memory
  cursor : s.driver.device.cursor = t.driver.device.cursor
  scanout : s.scanoutFb = some efb
  whole : wholeFrame efb.width efb.height ∈ s.driver.device.painter.dirtyRects
  within : ∀ r ∈ s.driver.device.painter.dirtyRects, r.Within efb.width efb.height
  marked : ∀ p ∈ efb.frame, p ∉ s.unmarked

/-- The sizes of an admitted mode are `unsigned short`s. -/
theorem wholeFrame_u16 {efb : EvdiFramebuffer} (mode : Admitted efb.width efb.height) :
    (⟨0, 0, u16 efb.width, u16 efb.height⟩ : DrmClipRect) =
      wholeFrame efb.width efb.height := by
  obtain ⟨narrow, low⟩ := mode
  ext <;> simp only [wholeFrame, u16] <;> omega

/-- The whole frame needs no clipping. -/
theorem sanitizeRect_wholeFrame (width height : ℕ) :
    sanitizeRect width height (wholeFrame width height) = wholeFrame width height := by
  rw [sanitizeRect_eq]
  ext <;> simp [wholeFrame]

/-- It is all of the pixels. -/
theorem span_wholeFrame (efb : EvdiFramebuffer) :
    (wholeFrame efb.width efb.height).span = efb.frame := by
  ext p
  simp [DrmClipRect.span, wholeFrame, EvdiFramebuffer.frame]

/-- What does not change the cursor waits for nothing. -/
theorem systemStep_drive (params : Params) {s : System} {input : DriverInput}
    {driver : DriverState} (other : input.isGrab = false)
    (driven : driverStep s.driver input = some driver)
    (cursor : driver.device.cursor = s.driver.device.cursor) :
    systemStep params s (.drive input) =
      some (s.advance params { s with driver } (s.driver.marks input)) := by
  simp [systemStep, other, driven, cursor]

/-- The sections of a page flip, one after the other. -/
theorem exists_flipped (params : Params) {t : System} {efb : EvdiFramebuffer}
    (inv : DriverInv t.driver) (mode : Admitted efb.width efb.height)
    (within : ∀ r ∈ t.driver.device.painter.dirtyRects, r.Within efb.width efb.height) :
    ∃ s, run (systemStep params) t ((flip efb).map .drive) = some s ∧ t.Flipped s efb := by
  let whole : DrmClipRect := wholeFrame efb.width efb.height
  let s₁ : System := t.advance params { t with
    driver.device := t.driver.device.setScanoutBuffer (some efb) } ∅
  let s₂ : System := s₁.advance params
    { s₁ with driver.device := s₁.driver.device.markDirty whole }
    (s₁.driver.marks (.markDirty whole))
  have painter := t.driver.device.setScanoutBuffer_painter (some efb)
  have scanout₁ : s₁.driver.device.painter.scanoutFb = some efb :=
    congrArg EvdiPainter.scanoutFb painter
  have dirts₁ : s₁.driver.device.painter.dirtyRects = t.driver.device.painter.dirtyRects :=
    (congrArg EvdiPainter.dirtyRects painter).trans rfl
  have dirts₂ : s₂.driver.device.painter.dirtyRects =
      addDirtyRect t.driver.device.painter.dirtyRects whole := by
    show (s₁.driver.device.markDirty whole).painter.dirtyRects = _
    rw [EvdiDevice.markDirty, scanout₁]
    show addDirtyRect s₁.driver.device.painter.dirtyRects _ = _
    rw [dirts₁, sanitizeRect_wholeFrame]
  have cursor₁ := t.driver.device.setScanoutBuffer_cursor (some efb)
  have cursor₂ := s₁.driver.device.markDirty_cursor whole
  refine ⟨s₂, ?_, ⟨rfl, rfl, cursor₂.trans cursor₁, ?_, ?_, ?_, fun p hp unmarked => ?_⟩⟩
  · have first : systemStep params t (.drive (.setScanoutBuffer (some efb))) = some s₁ :=
      systemStep_drive params rfl rfl cursor₁
    have second : systemStep params s₁ (.drive (.markDirty whole)) = some s₂ :=
      systemStep_drive params rfl rfl cursor₂
    rw [flip, wholeFrame_u16 mode, List.map_cons, List.map_singleton, run_cons, first,
      Option.bind_some, run_cons, second]
    rfl
  · exact (s₁.driver.device.markDirty_scanoutFb whole).trans scanout₁
  · obtain ⟨kept, added, -⟩ := addDirtyRect_cases inv.fewDirts whole
    rw [dirts₂, added]
    exact List.mem_append_right _ (List.mem_singleton_self _)
  · have inside := sanitizeRect_within efb.width efb.height whole
    rw [sanitizeRect_wholeFrame] at inside
    rw [dirts₂]
    exact within_addDirtyRect inv.fewDirts within inside
  · exact unmarked.2 ⟨efb, scanout₁, span_wholeFrame efb ▸ hp, hp⟩

/-- **A page flip repaints**: whatever was drawn, marked or lost before, the next grab
that is not disturbed shows the whole of the new framebuffer, and the cursor over it.
Again what is marked has to lie in the framebuffer. -/
theorem flip_repaints {efb : EvdiFramebuffer}
    (h : run (systemStep params) (.start cursor memory picture) actions = some t)
    (idle : t.grab = none) (size : Admitted efb.width efb.height) {cmd : EvdiDevice.Grabpix}
    (mode : cmd.mode = EvdiDevice.grabpixModeDirty) (space : 1 ≤ cmd.numRects)
    (fits : cmd.bufWidth = efb.width ∧ cmd.bufHeight = efb.height)
    (within : ∀ r ∈ t.driver.device.painter.dirtyRects, r.Within efb.width efb.height) :
    ∃ rects pixels u, run (systemStep params) t
        ((flip efb).map .drive ++ wholeGrab cmd rects pixels) = some u ∧
      u.scanoutFb = some efb ∧ ∀ p ∈ efb.frame,
        u.picture p = params.overlay t.driver.device.cursor efb (t.memory efb) p ∧
          p ∉ u.unmarked ∪ u.dirty ∪ u.inFlight ∪ u.lost := by
  obtain ⟨s, flipped, after⟩ :=
    exists_flipped params (faithful_of_run h).2.driver size within
  obtain ⟨device, rects, taken, merges⟩ :=
    EvdiDevice.grabpix_of_scanout after.scanout mode space
  obtain ⟨u, grabbed, all⟩ := run_wholeGrab params (after.grab.trans idle) taken fits
    (within_of_merges merges after.within)
  let pixels := (params.composePositions s.driver.device.cursor efb).length
  refine ⟨rects, pixels, u, ?_, all.scanout.trans after.scanout, fun p hp => ?_⟩
  · rw [run_append, flipped, Option.bind_some, grabbed]
  · have dirty : p ∈ s.dirty := ⟨_, after.whole, hp⟩
    have copied := dirtyArea_subset_of_merges merges dirty
    rw [all.copied p copied, System.view, after.memory, after.cursor]
    exact ⟨rfl, all.settled (after.marked p hp) fun h => h.2 copied⟩

/-- A flip to two pixels, one of them under the cursor. -/
theorem flip_repaints_twoPixels : ∃ rects pixels u,
    run (systemStep blending) sevens
        ((flip twoPixels).map .drive ++ wholeGrab ⟨1, 2, 1, 16⟩ rects pixels) = some u ∧
      ∀ p ∈ twoPixels.frame,
        u.picture p =
          blending.overlay whiteCursor twoPixels (sevens.memory twoPixels) p := by
  obtain ⟨rects, pixels, u, flipped, -, repainted⟩ := flip_repaints
    (show run (systemStep blending) sevens [] = some sevens from rfl) rfl
    (show Admitted twoPixels.width twoPixels.height from ⟨by decide, by decide⟩)
    (show (⟨1, 2, 1, 16⟩ : EvdiDevice.Grabpix).mode = _ from rfl) (by decide)
      ⟨rfl, rfl⟩ nofun
  exact ⟨rects, pixels, u, flipped, fun p hp => (repainted p hp).1⟩

end Pictures

/-- **The steps are those of the code**: a grab with nothing in between gives the client
what `copyPixels` writes into its buffer. -/
theorem wholeGrab_eq_copyPixels (params : Params) {s : System} {cmd : EvdiDevice.Grabpix}
    {device : EvdiDevice} {efb : EvdiFramebuffer} {rects : List DrmClipRect}
    (idle : s.grab = none)
    (taken : s.driver.device.grabpix cmd = (device, .ok (efb, rects)))
    (fits : cmd.bufWidth = efb.width ∧ cmd.bufHeight = efb.height)
    (within : ∀ r ∈ rects, r.Within efb.width efb.height) {vmapping : List UInt8}
    (backed : efb.Backed vmapping)
    (shows : ∀ p ∈ efb.frame, s.memory efb p = scanoutWord efb vmapping p)
    (mode : Admitted efb.width efb.height) (aligned : 4 ∣ efb.pitch)
    (counted : s.driver.device.cursor.Counted) (mapped : s.driver.device.cursor.Mapped)
    {stride : ℤ} (room : efb.FitsInto stride) (writable : ℤ → Bool)
    (fine : ∀ k, 0 ≤ k → k < stride * efb.height → writable k = true)
    (mem : ByteMemory.Memory) :
    ∃ pixels u mem', run (systemStep params) s (wholeGrab cmd rects pixels) = some u ∧
      copyPixels params.enableCursorBlending params.getBpp writable efb vmapping stride
        s.driver.device.cursor rects mem = some (0, mem') ∧
      (∀ p ∈ dirtyArea rects, u.picture p = ByteMemory.wordAt mem' (address stride p)) ∧
      ∀ p ∉ dirtyArea rects, u.picture p = s.picture p := by
  obtain ⟨u, grabbed, all⟩ := run_wholeGrab params idle taken fits within
  obtain ⟨mem', copied, words⟩ := copyPixels_spec params.getBpp writable
    params.enableCursorBlending backed room mode aligned counted mapped within fine mem
  refine ⟨_, u, mem', grabbed, copied, fun p hp => ?_, all.other⟩
  have inFrame := dirtyArea_subset_frame within hp
  rw [all.copied p hp, (words p inFrame.1).1 (Or.inl hp),
    ← params.overlay_scanoutWord inFrame]
  exact params.overlay_congr (shows p inFrame)

/-- One pixel, copied in steps and at once. -/
theorem wholeGrab_eq_copyPixels_right : ∃ t pixels u mem',
    run (systemStep blending) sevens rightMarked = some t ∧
      run (systemStep blending) t (wholeGrab ⟨1, 2, 1, 16⟩ [⟨1, 0, 2, 1⟩] pixels) = some u ∧
      copyPixels true (fun _ => 32) (fun _ => true) twoPixels
        (List.replicate 8 7) 8 whiteCursor [⟨1, 0, 2, 1⟩] (fun _ => 0) = some (0, mem') ∧
      u.picture (1, 0) = ByteMemory.wordAt mem' (address 8 (1, 0)) := by
  obtain ⟨t, device, marked, idle, -, memory, cursor, taken, -⟩ := run_rightMarked
  have counted : whiteCursor.Counted := ⟨by decide, by decide, by decide⟩
  have mapped : whiteCursor.Mapped := by
    rintro obj cursorBuffer ⟨⟩ ⟨⟩
    rfl
  obtain ⟨pixels, u, mem', grabbed, copied, same, -⟩ :=
    wholeGrab_eq_copyPixels blending idle taken
    ⟨rfl, rfl⟩ (List.forall_mem_singleton.mpr ⟨by decide, by decide, by decide, by decide⟩)
    (show twoPixels.Backed (List.replicate 8 7) from ⟨by decide, by decide, by decide⟩)
    (fun p _ => by rw [memory]; rfl) ⟨by decide, by decide⟩ (by decide) (cursor ▸ counted)
    (cursor ▸ mapped) (show twoPixels.FitsInto 8 from ⟨by decide, by decide⟩)
    (fun _ => true) (fun _ _ _ => rfl) fun _ => 0
  exact ⟨t, pixels, u, mem', marked, grabbed, cursor ▸ copied,
    same _ ⟨_, List.mem_singleton_self _, by decide⟩⟩

end Kernelflut.Driver
